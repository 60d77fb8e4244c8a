import UsacSyscalls.Userland.Process

/-!
Contract: `test.c`, the program that checks a fresh mapping byte by byte and
fills it with letters.

Owns the program with everything it prints, what its loop does to memory and to
the terminal for clean and for dirty memory, and the verdict that its exit
status gives on the mapping.

Does not own the mapping itself; that is `Entry`.
-/

set_option autoImplicit false

namespace UsacSyscalls.Userland

open UsacSyscalls.Foundation
open UsacSyscalls.Kernel
open UsacSyscalls.Project2

/-! ### The program -/

/-- `SYS_TAMALLOC` -/
def sysTamalloc : Nat := 552

def totalSize : Nat := 10 * 1024 * 1024

/-- `'A' + (rand() % 26)` -/
def randomLetter (draw : Fin (2 ^ 31)) : Byte := BitVec.ofNat 8 (65 + draw.val % 26)

/-- `%p` -/
def pointerText (address : Nat) : String :=
  if address = 0 then "(nil)" else "0x" ++ String.ofList (Nat.toDigits 16 address)

def dirtyText (i : Nat) : String :=
  "\x1b[1;31mERROR FATAL: La memoria en el byte " ++ toString i ++
    " no estaba inicializada a 0\x1b[0m\n"

def progressText (megabytes : Nat) : String :=
  "\x1b[1;34mProgreso: " ++ toString megabytes ++ " MB procesados...\x1b[0m\n"

def showProgress (i : Nat) : User Unit :=
  if i % (1024 * 1024) = 0 ∧ i > 0 then do
    printf (progressText (i / (1024 * 1024)))
    idle (.sleep 1)
  else pure ()

/-- The loop over the mapping, from byte `i` with `left` bytes to go. -/
def verifyAndFill (buffer : Nat) : Nat → Nat → User (Option Int)
  | 0, _ => pure none
  | left + 1, i => do
      let t ← load (buffer + i) 1 8
      if t ≠ 0 then do
        printf (dirtyText i)
        pure (some 10)
      else do
        let draw ← rand
        store (buffer + i) [randomLetter draw]
        showProgress i
        verifyAndFill buffer left (i + 1)

/-- The greeting, up to the first ENTER. -/
def greet : User Unit := do
  printf "\x1b[1;32m=== Bienvenido al programa de tamalloc ===\x1b[0m\n"
  let pid ← getpid
  printf ("\x1b[1;34mPID del programa: " ++ toString pid.toInt ++ "\x1b[0m\n")
  printf "\x1b[1;36mEste programa asigna memoria usando tamalloc.\x1b[0m\n"
  printf "\x1b[1;33mPresiona ENTER para continuar...\x1b[0m\n"
  idle .getchar

/-- What follows the loop: its early return, or the end of `main`. -/
def conclude : Option Int → User Int
  | some code => pure code
  | none => do
      printf ("\x1b[1;32mTodas las regiones de memoria verificadas y llenadas " ++
        "correctamente.\x1b[0m\n")
      printf "\x1b[1;33mPresiona ENTER para finalizar el programa.\x1b[0m\n"
      idle .getchar
      printf "\x1b[1;36mGracias por usar tamalloc. Hasta la próxima!\x1b[0m\n"
      pure 0

/-- What follows a mapping that was granted. -/
def checkMapping (buffer totalSize : Nat) : User Int := do
  printf ("\x1b[1;32mDirección de memoria: " ++ pointerText buffer ++ "\x1b[0m\n")
  printf "\x1b[1;33mPresiona ENTER para comenzar a leer memoria byte por byte...\x1b[0m\n"
  idle .getchar
  idle .srand
  let stopped ← verifyAndFill buffer totalSize 0
  conclude stopped

def tamallocFailed : String := "\x1b[1;31mError: La llamada a tamalloc falló\x1b[0m"

def testMain : User Int := do
  greet
  let buffer ← syscall sysTamalloc ⟨BitVec.ofNat 64 totalSize, 0, 0⟩
  if buffer < 0 then do
    perror tamallocFailed
    pure 1
  else checkMapping buffer.toNat totalSize

/-! ### The loop -/

/-- The letters of `count` draws. -/
def letters (world : World) (draws count : Nat) : List Byte :=
  (List.range' draws count).map fun draw => randomLetter (world.random draw)

/-- What is shown while `count` bytes from byte `i` are filled. -/
def progressLog (i count : Nat) : List Event :=
  ((List.range' i count).filter fun byte => byte % (1024 * 1024) = 0 ∧ byte > 0).flatMap
    fun byte => [.printed (progressText (byte / (1024 * 1024))), .idled (.sleep 1)]

/-- The process after `count` bytes from byte `i` of the buffer are filled. -/
def filled (world : World) (buffer i count : Nat) (process : Process) : Process :=
  { (process.written
      (process.user.store (buffer + i) (letters world process.draws count))).shown
        (progressLog i count) with
    draws := process.draws + count }

theorem letters_length (world : World) (draws count : Nat) :
    (letters world draws count).length = count := by
  simp [letters]

theorem letters_range {world : World} {draws count : Nat} {byte : Byte}
    (member : byte ∈ letters world draws count) : 65 ≤ byte.toNat ∧ byte.toNat ≤ 90 := by
  obtain ⟨draw, -, rfl⟩ := List.mem_map.mp member
  unfold randomLetter
  rw [BitVec.toNat_ofNat]
  omega

theorem progressLog_succ (i left : Nat) :
    progressLog i (left + 1) = progressLog i 1 ++ progressLog (i + 1) left := by
  have split : List.range' i (left + 1) = List.range' i 1 ++ List.range' (i + 1) left := rfl
  unfold progressLog
  rw [split, List.filter_append, List.flatMap_append]

theorem behaves_showProgress {world : World} {process : Process} (i : Nat) :
    Behaves world (showProgress i) process () (process.shown (progressLog i 1)) := by
  unfold showProgress
  by_cases due : i % (1024 * 1024) = 0 ∧ i > 0
  · have log : progressLog i 1 =
        [.printed (progressText (i / (1024 * 1024)))] ++ [.idled (.sleep 1)] := by
      simp [progressLog, due]
    rw [if_pos due, log, ← Process.shown_shown]
    exact Program.Runs.bind (behaves_printf _) (behaves_idle _)
  · have log : progressLog i 1 = [] := by
      simp only [progressLog, List.range'_one, List.filter_singleton, due, decide_false]
      rfl
    rw [if_neg due, log, Process.shown_nil]
    exact Program.Runs.pure ()

theorem letters_succ (world : World) (draws count : Nat) :
    letters world draws (count + 1) = letters world draws 1 ++ letters world (draws + 1) count :=
  rfl

theorem filled_succ (world : World) (buffer i left : Nat) (process : Process) :
    filled world buffer i (left + 1) process =
      filled world buffer (i + 1) left (filled world buffer i 1 process) := by
  have stores := ByteMemory.store_store_append process.user (buffer + i)
    (letters world process.draws 1) (letters world (process.draws + 1) left)
  rw [letters_length, ← letters_succ] at stores
  unfold filled
  simp only [Process.written, Process.shown, Process.user, progressLog_succ i left,
    List.append_assoc, Nat.add_assoc, Nat.add_comm 1 left] at stores ⊢
  rw [← stores]

theorem filled_zero (world : World) (buffer i : Nat) (process : Process) :
    filled world buffer i 0 process = process := by
  simp [filled, letters, progressLog, Process.written_self]

section Loop

variable {world : World} {buffer : Nat}

theorem mapped_head {process : Process} {address left : Nat}
    (mapped : process.Mapped address (left + 1)) : process.Mapped address 1 := by
  obtain ⟨region, member, lower, upper⟩ := mapped
  exact ⟨region, member, lower, by omega⟩

theorem mapped_tail {process : Process} {i left : Nat}
    (mapped : process.Mapped (buffer + i) (left + 1)) :
    (filled world buffer i 1 process).Mapped (buffer + (i + 1)) left := by
  obtain ⟨region, member, lower, upper⟩ := mapped
  exact ⟨region, member, by omega, by omega⟩

/-- Bytes behind the first are not touched by the first iteration. -/
theorem filled_one_user {process : Process} {i : Nat} (offset : Nat) :
    (filled world buffer i 1 process).user (buffer + (i + 1) + offset) =
      process.user (buffer + i + (offset + 1)) := by
  have outside : buffer + i + (letters world process.draws 1).length ≤
      buffer + (i + 1) + offset := by
    rw [letters_length]
    omega
  have same : buffer + (i + 1) + offset = buffer + i + (offset + 1) := by omega
  rw [← same]
  exact ByteMemory.store_outside process.user (.inr outside)

/-- The first iteration, when the byte is zero. -/
theorem behaves_iteration {process : Process} {i left : Nat} {value : Option Int}
    {after : Process} (mapped : process.Mapped (buffer + i) (left + 1))
    (clean : process.user (buffer + i) = 0)
    (rest : Behaves world (verifyAndFill buffer left (i + 1)) (filled world buffer i 1 process)
      value after) :
    Behaves world (verifyAndFill buffer (left + 1) i) process value after := by
  unfold verifyAndFill
  apply Program.Runs.bind (behaves_load (mapped_head mapped))
  rw [getField_byte, if_neg (not_not.mpr clean)]
  apply Program.Runs.bind behaves_rand
  apply Program.Runs.bind (behaves_store (mapped_head mapped))
  apply Program.Runs.bind (behaves_showProgress i)
  exact rest

/-- A clean buffer is filled to its end. -/
theorem verifyAndFill_clean {process : Process} {i left : Nat}
    (mapped : process.Mapped (buffer + i) left)
    (clean : ∀ offset < left, process.user (buffer + i + offset) = 0) :
    Behaves world (verifyAndFill buffer left i) process none
      (filled world buffer i left process) := by
  induction left generalizing i process with
  | zero =>
      rw [filled_zero]
      exact Program.Runs.pure none
  | succ left inductionHypothesis =>
      rw [filled_succ]
      apply behaves_iteration mapped (clean 0 (by omega))
      apply inductionHypothesis (mapped_tail mapped)
      intro offset below
      rw [filled_one_user]
      exact clean (offset + 1) (by omega)

/-- The loop stops at the first byte that is not zero and names it. -/
theorem verifyAndFill_dirty {process : Process} {i left offset : Nat}
    (mapped : process.Mapped (buffer + i) left) (below : offset < left)
    (clean : ∀ before < offset, process.user (buffer + i + before) = 0)
    (dirty : process.user (buffer + i + offset) ≠ 0) :
    Behaves world (verifyAndFill buffer left i) process (some 10)
      ((filled world buffer i offset process).shown [.printed (dirtyText (i + offset))]) := by
  induction offset generalizing i left process with
  | zero =>
      obtain ⟨left, rfl⟩ : ∃ rest, left = rest + 1 := ⟨left - 1, by omega⟩
      have here : process.user (buffer + i) ≠ 0 := dirty
      rw [filled_zero]
      unfold verifyAndFill
      apply Program.Runs.bind (behaves_load (mapped_head mapped))
      rw [getField_byte, if_pos here]
      exact Program.Runs.bind (behaves_printf _) (Program.Runs.pure _)
  | succ offset inductionHypothesis =>
      obtain ⟨left, rfl⟩ : ∃ rest, left = rest + 1 := ⟨left - 1, by omega⟩
      have position : i + (offset + 1) = i + 1 + offset := by omega
      rw [filled_succ, position]
      apply behaves_iteration mapped (clean 0 (by omega))
      apply inductionHypothesis (mapped_tail mapped) (by omega)
      · intro before earlier
        rw [filled_one_user]
        exact clean (before + 1) (by omega)
      · rw [filled_one_user]
        exact dirty

end Loop

/-! ### Progress -/

/-- Where a block of `unit` bytes reports: at its first byte, unless that is the
first byte of all. -/
theorem filter_block (unit blocks : Nat) (positive : 0 < unit) :
    (List.range' (blocks * unit) unit).filter (fun byte => byte % unit = 0 ∧ byte > 0) =
      if blocks = 0 then [] else [blocks * unit] := by
  obtain ⟨rest, rfl⟩ : ∃ rest, unit = rest + 1 := ⟨unit - 1, by omega⟩
  have later : (List.range' (blocks * (rest + 1) + 1) rest).filter
      (fun byte => byte % (rest + 1) = 0 ∧ byte > 0) = [] := by
    apply List.filter_eq_nil_iff.mpr
    intro byte member
    obtain ⟨lower, upper⟩ := List.mem_range'_1.mp member
    obtain ⟨offset, rfl⟩ : ∃ offset, byte = blocks * (rest + 1) + offset :=
      ⟨byte - blocks * (rest + 1), by omega⟩
    rw [Nat.mul_comm, Nat.mul_add_mod, Nat.mod_eq_of_lt (by omega)]
    simp
    omega
  rw [List.range'_succ, List.filter_cons, later, Nat.mul_mod_left]
  by_cases first : blocks = 0
  · simp [first]
  · simp [first, Nat.pos_of_ne_zero first]

theorem filter_blocks (unit blocks : Nat) (positive : 0 < unit) :
    (List.range' 0 (blocks * unit)).filter (fun byte => byte % unit = 0 ∧ byte > 0) =
      (List.range' 1 (blocks - 1)).map (· * unit) := by
  induction blocks with
  | zero => simp
  | succ blocks inductionHypothesis =>
      have split : List.range' 0 ((blocks + 1) * unit) =
          List.range' 0 (blocks * unit) ++ List.range' (blocks * unit) unit := by
        rw [Nat.succ_mul, ← List.range'_append_1, Nat.zero_add]
      rw [split, List.filter_append, inductionHypothesis, filter_block unit blocks positive]
      by_cases first : blocks = 0
      · simp [first]
      · obtain ⟨earlier, rfl⟩ : ∃ earlier, blocks = earlier + 1 := ⟨blocks - 1, by omega⟩
        rw [if_neg first, Nat.add_sub_cancel, Nat.add_sub_cancel, List.range'_concat]
        simp [Nat.add_comm]

/-- Ten megabytes are announced by nine lines. -/
theorem progressLog_total :
    progressLog 0 totalSize = (List.range' 1 9).flatMap fun megabytes =>
      [.printed (progressText megabytes), .idled (.sleep 1)] := by
  have blocks := filter_blocks (1024 * 1024) 10 (by decide)
  unfold progressLog
  have size : totalSize = 10 * (1024 * 1024) := by decide
  rw [size, blocks, List.flatMap_map]
  simp only [Nat.mul_div_cancel _ (show 0 < 1024 * 1024 by decide)]

/-! ### The verdict -/

def opening (world : World) : List Event :=
  [.printed "\x1b[1;32m=== Bienvenido al programa de tamalloc ===\x1b[0m\n",
    .printed ("\x1b[1;34mPID del programa: " ++ toString world.pid.toInt ++ "\x1b[0m\n"),
    .printed "\x1b[1;36mEste programa asigna memoria usando tamalloc.\x1b[0m\n",
    .printed "\x1b[1;33mPresiona ENTER para continuar...\x1b[0m\n",
    .idled .getchar]

def announced (address : Nat) : List Event :=
  [.printed ("\x1b[1;32mDirección de memoria: " ++ pointerText address ++ "\x1b[0m\n"),
    .printed "\x1b[1;33mPresiona ENTER para comenzar a leer memoria byte por byte...\x1b[0m\n",
    .idled .getchar,
    .idled .srand]

def closing : List Event :=
  [.printed ("\x1b[1;32mTodas las regiones de memoria verificadas y llenadas " ++
      "correctamente.\x1b[0m\n"),
    .printed "\x1b[1;33mPresiona ENTER para finalizar el programa.\x1b[0m\n",
    .idled .getchar,
    .printed "\x1b[1;36mGracias por usar tamalloc. Hasta la próxima!\x1b[0m\n"]

/-- The memory of a process whose new mapping of `size` bytes holds `contents`
and is filled with letters up to `offset`; nothing else has changed. -/
structure FilledUpTo (contents : ByteMemory) (base size offset : Nat) (before after : Process) :
    Prop where
  mapping : after.system.space.regions = ⟨base, size⟩ :: before.system.space.regions
  letters : ∀ position < offset,
    65 ≤ (after.user (base + position)).toNat ∧ (after.user (base + position)).toNat ≤ 90
  rest : ∀ position, offset ≤ position → position < size →
    after.user (base + position) = contents (base + position)
  others : ∀ address, address < base ∨ base + size ≤ address →
    after.user address = before.user address

/-- What an exit status says about a mapping that was granted. -/
inductive Checked (contents : ByteMemory) (base size : Nat) (before after : Process)
    (log : List Event) : Int → Prop
  | clean (zeros : ∀ position < size, contents (base + position) = 0)
      (filled : FilledUpTo contents base size size before after)
      (shown : after.log = log ++ (announced base ++ (progressLog 0 size ++ closing))) :
      Checked contents base size before after log 0
  | dirty (offset : Nat) (inside : offset < size)
      (zeros : ∀ position < offset, contents (base + position) = 0)
      (found : contents (base + offset) ≠ 0)
      (filled : FilledUpTo contents base size offset before after)
      (shown : after.log = log ++ (announced base ++
        (progressLog 0 offset ++ [.printed (dirtyText offset)]))) :
      Checked contents base size before after log 10

/-- What each exit status says. -/
inductive Verdict (world : World) (before after : Process) : Int → Prop
  | refused (errno : after.errno = enomem) (memory : after.user = before.user)
      (shown : after.log = before.log ++ (opening world ++ [.failed tamallocFailed enomem])) :
      Verdict world before after 1
  | granted (base : Nat) {code : Int}
      (checked : Checked (world.moment before.calls).contents base totalSize before after
        (before.log ++ opening world) code) :
      Verdict world before after code

theorem clean_or_first_dirty (contents : ByteMemory) (base size : Nat) :
    (∀ position < size, contents (base + position) = 0) ∨
      ∃ offset < size, (∀ position < offset, contents (base + position) = 0) ∧
        contents (base + offset) ≠ 0 := by
  induction size with
  | zero => exact .inl fun _ absurdity => absurd absurdity (Nat.not_lt_zero _)
  | succ size inductionHypothesis =>
      rcases inductionHypothesis with clean | ⟨offset, below, first⟩
      · by_cases last : contents (base + size) = 0
        · left
          intro position below
          rcases Nat.lt_succ_iff_lt_or_eq.mp below with earlier | rfl
          · exact clean position earlier
          · exact last
        · exact .inr ⟨size, Nat.lt_succ_self size, clean, last⟩
      · exact .inr ⟨offset, Nat.lt_succ_of_lt below, first⟩

section Main

variable {world : World} {process : Process}

theorem behaves_greet : Behaves world greet process () (process.shown (opening world)) := by
  unfold greet
  apply Program.Runs.bind (behaves_printf _)
  apply Program.Runs.bind behaves_getpid
  apply Program.Runs.bind (behaves_printf _)
  apply Program.Runs.bind (behaves_printf _)
  apply Program.Runs.bind (behaves_printf _)
  simp only [Process.shown_shown]
  exact (behaves_idle _).ends (Process.shown_shown _ _ _)

theorem behaves_checkMapping {buffer size : Nat} {filledTo after : Process}
    {stopped : Option Int} {value : Int}
    (loop : Behaves world (verifyAndFill buffer size 0) (process.shown (announced buffer))
      stopped filledTo)
    (rest : Behaves world (conclude stopped) filledTo value after) :
    Behaves world (checkMapping buffer size) process value after := by
  unfold checkMapping
  apply Program.Runs.bind (behaves_printf _)
  apply Program.Runs.bind (behaves_printf _)
  apply Program.Runs.bind (behaves_idle _)
  apply Program.Runs.bind (behaves_idle _)
  simp only [Process.shown_shown]
  exact Program.Runs.bind loop rest

theorem behaves_conclude_none :
    Behaves world (conclude none) process 0 (process.shown closing) := by
  unfold conclude
  apply Program.Runs.bind (behaves_printf _)
  apply Program.Runs.bind (behaves_printf _)
  apply Program.Runs.bind (behaves_idle _)
  apply Program.Runs.bind (behaves_printf _)
  simp only [Process.shown_shown]
  exact Program.Runs.pure 0

section Mapping

variable {before mapped : Process} {contents : ByteMemory} {base size : Nat}
  (mapping : mapped.system.space.regions = ⟨base, size⟩ :: before.system.space.regions)
  (fresh : mapped.user = newPages before.user contents ⟨base, size⟩)

include mapping fresh

theorem filledUpTo_of_filled {offset : Nat} (inside : offset ≤ size) (events : List Event) :
    FilledUpTo contents base size offset before
      ((filled world base 0 offset mapped).shown events) := by
  have width := letters_length world mapped.draws offset
  have stored : ((filled world base 0 offset mapped).shown events).user =
      mapped.user.store base (letters world mapped.draws offset) := rfl
  constructor
  · exact mapping
  · intro position below
    have letter : (letters world mapped.draws offset).getD position 0 ∈
        letters world mapped.draws offset := by
      rw [List.getD_eq_getElem _ _ (by omega)]
      exact List.getElem_mem _
    rw [stored, ByteMemory.store_inside _ (by omega)]
    exact letters_range letter
  · intro position lower upper
    rw [stored, ByteMemory.store_outside _ (by omega), fresh]
    exact if_pos ⟨Nat.le_add_right _ _, Nat.add_lt_add_left upper _⟩
  · intro address outside
    rw [stored, ByteMemory.store_outside _ (by omega), fresh]
    exact newPages_outside outside

/-- The check of a mapping that was just made. -/
theorem checkMapping_checked (world : World) :
    ∃ code after, Behaves world (checkMapping base size) mapped code after ∧
      Checked contents base size before after mapped.log code := by
  have room : (mapped.shown (announced base)).Mapped (base + 0) size := by
    refine ⟨⟨base, size⟩, ?_, Nat.le_refl _, Nat.le_refl _⟩
    show _ ∈ mapped.system.space.regions
    rw [mapping]
    exact List.mem_cons_self
  have held : ∀ position < size, (mapped.shown (announced base)).user (base + 0 + position) =
      contents (base + position) := by
    intro position below
    show mapped.user (base + position) = _
    rw [fresh]
    exact if_pos ⟨Nat.le_add_right _ _, Nat.add_lt_add_left below _⟩
  have mappingShown : (mapped.shown (announced base)).system.space.regions = _ := mapping
  have freshShown : (mapped.shown (announced base)).user = _ := fresh
  rcases clean_or_first_dirty contents base size with zeros | ⟨offset, inside, zeros, found⟩
  · have loop : Behaves world (verifyAndFill base size 0) _ _ _ :=
      verifyAndFill_clean room fun position below =>
        (held position below).trans (zeros position below)
    refine ⟨0, _, behaves_checkMapping loop behaves_conclude_none, .clean zeros ?_ ?_⟩
    · exact filledUpTo_of_filled mappingShown freshShown (Nat.le_refl _) closing
    · show (mapped.log ++ announced base ++ progressLog 0 size) ++ closing = _
      simp only [List.append_assoc]
  · have loop : Behaves world (verifyAndFill base size 0) _ _ _ :=
      verifyAndFill_dirty room inside
        (fun position below => (held position (by omega)).trans (zeros position below))
        (by rw [held offset inside]; exact found)
    rw [Nat.zero_add] at loop
    refine ⟨10, _, behaves_checkMapping loop (Program.Runs.pure _),
      .dirty offset inside zeros found ?_ ?_⟩
    · exact filledUpTo_of_filled mappingShown freshShown (Nat.le_of_lt inside) _
    · show (mapped.log ++ announced base ++ progressLog 0 offset) ++ _ = _
      simp only [List.append_assoc]

end Mapping

theorem testMain_refused
    (refused : MapRefused world (BitVec.ofNat 64 totalSize) (process.shown (opening world))) :
    Behaves world testMain process 1
      ((afterMap world (BitVec.ofNat 64 totalSize) (process.shown (opening world))).shown
        [.failed tamallocFailed enomem]) := by
  have errno := afterMap_errno refused
  rw [if_neg (by decide)] at errno
  unfold testMain
  apply Program.Runs.bind behaves_greet
  apply Program.Runs.bind (behaves_map_refused refused)
  rw [if_pos (by decide), ← errno]
  exact Program.Runs.bind (behaves_perror _) (Program.Runs.pure 1)

theorem testMain_granted {base : Nat} {value : Int} {after : Process}
    (granted : MapGranted world (BitVec.ofNat 64 totalSize) (process.shown (opening world)) base)
    (rest : Behaves world (checkMapping base totalSize)
      (afterMap world (BitVec.ofNat 64 totalSize) (process.shown (opening world))) value after) :
    Behaves world testMain process value after := by
  unfold testMain
  apply Program.Runs.bind behaves_greet
  apply Program.Runs.bind (behaves_map_granted granted)
  rw [if_neg (by omega), Int.toNat_natCast]
  exact rest

/-- The exit status of the program tells what the new mapping held: `0` that all
of it was zero, `10` that the byte it names was the first that was not, and `1`
that there is no mapping. It accesses nothing but the mapping, and reports nine
megabytes on its way through ten. -/
theorem testMain_verdict (world : World) (process : Process)
    (answered : AnsweredThroughout process.system.space
      ⟨BitVec.ofNat 64 totalSize, (world.moment process.calls).answer⟩) :
    ∃ code after, Behaves world testMain process code after ∧ Verdict world process after code ∧
      (code = 0 → ∃ base, after.log = process.log ++ opening world ++ (announced base ++
        (((List.range' 1 9).flatMap fun megabytes =>
          [.printed (progressText megabytes), .idled (.sleep 1)]) ++ closing))) := by
  have cases : MapRefused world (BitVec.ofNat 64 totalSize) (process.shown (opening world)) ∨
      MapGranted world (BitVec.ofNat 64 totalSize) (process.shown (opening world))
        (world.moment process.calls).answer.toNat :=
    enterMap_cases answered
  rcases cases with refused | granted
  · refine ⟨1, _, testMain_refused refused, .refused ?_ ?_ ?_, ?_⟩
    · exact afterMap_errno refused
    · exact afterMap_user_of_refused refused
    · show (process.log ++ opening world) ++ _ = _
      rw [List.append_assoc]
    · intro success
      exact absurd success (by decide)
  · have aligned : (pageAlign (BitVec.ofNat 64 totalSize)).toNat = totalSize := by decide
    have mapping : (afterMap world (BitVec.ofNat 64 totalSize)
        (process.shown (opening world))).system.space.regions =
          _ :: process.system.space.regions := granted.regions
    have fresh : (afterMap world (BitVec.ofNat 64 totalSize)
        (process.shown (opening world))).user =
          newPages process.user (world.moment process.calls).contents _ := granted.user
    rw [aligned] at mapping fresh
    obtain ⟨code, after, run, checked⟩ := checkMapping_checked mapping fresh world
    refine ⟨code, after, testMain_granted granted run, .granted _ checked, ?_⟩
    intro success
    cases checked with
    | clean zeros filled shown =>
        rw [progressLog_total] at shown
        exact ⟨_, shown⟩
    | dirty offset inside zeros found filled shown => exact absurd success (by decide)

theorem testMain_verdict_on_quiet_world :
    ∃ code after, Behaves quietWorld testMain newProcess code after ∧
      Verdict quietWorld newProcess after code := by
  have roundable : Roundable (BitVec.ofNat 64 totalSize) := ⟨totalSize, by decide⟩
  have answered : AnsweredThroughout newProcess.system.space
      ⟨BitVec.ofNat 64 totalSize, (quietWorld.moment newProcess.calls).answer⟩ := by
    apply answeredThroughout_of_free (by decide) roundable (by decide) (by decide)
    intro region absent
    cases absent
  obtain ⟨code, after, run, verdict, -⟩ := testMain_verdict quietWorld newProcess answered
  exact ⟨code, after, run, verdict⟩

end Main

end UsacSyscalls.Userland
