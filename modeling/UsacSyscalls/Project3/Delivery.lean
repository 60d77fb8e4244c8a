import UsacSyscalls.Project3.Registry

/-!
Contract: what `get_memory_limits` leaves in user memory.

Owns the bytes of one copied record, the memory effect of the record loop for
every point at which a copy can fail, and the outcome equations of the whole
call.

Does not own what a caller may conclude from them: the delivered prefix is
`DeliveredPrefix`, the bytes the call may change `WriteFrame`, disclosure of
stack contents `Disclosure`.
-/

set_option autoImplicit false

namespace UsacSyscalls.Project3

open UsacSyscalls.Foundation
open UsacSyscalls.Kernel

/-! ### Record bytes -/

/-- The bytes `tmp` holds after its two assignments: the members and, between
them, the four bytes that no member covers. -/
def recordBytes (padding : List Byte) (entry : MemoryLimitationEntry) : List Byte :=
  leBytes 4 entry.pid.toNat ++ (padding ++ leBytes 8 entry.memoryLimit.toNat)

def recordsBytes (padding : List Byte) (entries : List MemoryLimitationEntry) : List Byte :=
  entries.flatMap (recordBytes padding)

theorem fillTmp_load (tmp : ByteMemory) (entry : MemoryLimitationEntry) :
    (fillTmp tmp entry).load 0 sizeofMemoryLimitation =
      recordBytes (tmp.load 4 4) entry := by
  have pidBytes : (setField tmp 0 4 entry.pid).load 0 4 = leBytes 4 entry.pid.toNat := by
    have stored := ByteMemory.load_store_self tmp 0 (leBytes 4 entry.pid.toNat)
    rwa [leBytes_length] at stored
  have paddingBytes : (setField tmp 0 4 entry.pid).load 4 4 = tmp.load 4 4 :=
    ByteMemory.load_store_disjoint tmp (Or.inr (by simp))
  have members : (setField tmp 0 4 entry.pid).load 0 (4 + 4) =
      leBytes 4 entry.pid.toNat ++ tmp.load 4 4 := by
    rw [ByteMemory.load_add, pidBytes, Nat.zero_add, paddingBytes]
  have whole := ByteMemory.load_store_append (setField tmp 0 4 entry.pid) 0 8
    (leBytes 8 entry.memoryLimit.toNat)
  rw [leBytes_length] at whole
  calc (fillTmp tmp entry).load 0 sizeofMemoryLimitation
      = (setField tmp 0 4 entry.pid).load 0 8 ++ leBytes 8 entry.memoryLimit.toNat := whole
    _ = recordBytes (tmp.load 4 4) entry := by
      rw [members, List.append_assoc]
      rfl

/-- The assignments keep the bytes between the members. -/
theorem fillTmp_padding (tmp : ByteMemory) (entry : MemoryLimitationEntry) :
    (fillTmp tmp entry).load 4 4 = tmp.load 4 4 := by
  unfold fillTmp setField
  rw [ByteMemory.load_store_disjoint _ (Or.inl (by simp)),
    ByteMemory.load_store_disjoint _ (Or.inr (by simp))]

section Loop

variable {padding : List Byte} (width : padding.length = 4)

include width

theorem recordBytes_length (entry : MemoryLimitationEntry) :
    (recordBytes padding entry).length = sizeofMemoryLimitation := by
  simp [recordBytes, width, sizeofMemoryLimitation]

theorem recordsBytes_length (entries : List MemoryLimitationEntry) :
    (recordsBytes padding entries).length = sizeofMemoryLimitation * entries.length := by
  induction entries with
  | nil => rfl
  | cons entry rest inductionHypothesis =>
      simp only [recordsBytes, List.flatMap_cons, List.length_append, List.length_cons]
      rw [recordBytes_length width]
      unfold recordsBytes at inductionHypothesis
      rw [inductionHypothesis, Nat.mul_succ, Nat.add_comm]

end Loop

/-! ### The record loop -/

section Loop

variable (env : Environment) (machine : Machine) {buffer : Nat} {maxEntries : SizeT}

/-- The address of the record at a position of the caller's buffer. -/
def recordAddress (buffer : Nat) (index : Nat) : Nat :=
  buffer + sizeofMemoryLimitation * index

theorem recordAddress_zero (buffer : Nat) : recordAddress buffer 0 = buffer := rfl

theorem recordAddress_succ (buffer : Nat) (index : Nat) :
    recordAddress buffer (index + 1) = recordAddress buffer index + sizeofMemoryLimitation := by
  unfold recordAddress
  rw [Nat.mul_succ, Nat.add_assoc]

theorem recordAddress_add_le (buffer : Nat) {index count : Nat} (below : index < count) :
    recordAddress buffer index + sizeofMemoryLimitation ≤ recordAddress buffer count := by
  rw [← recordAddress_succ]
  unfold recordAddress
  exact Nat.add_le_add_left (Nat.mul_le_mul_left _ below) _

theorem le_recordAddress (buffer : Nat) (index : Nat) :
    buffer ≤ recordAddress buffer index :=
  Nat.le_add_right _ _

theorem copyRecords_stop {entries : List MemoryLimitationEntry} {count : SizeT} (tmp : ByteMemory)
    (stop : entries.take (maxEntries.toNat - count.toNat) = []) :
    complete env (copyRecords buffer maxEntries entries count tmp) machine =
      (.ok count, machine) := by
  cases entries with
  | nil => rfl
  | cons entry rest =>
      have full : maxEntries.toNat ≤ count.toNat := by
        rcases List.take_eq_nil_iff.mp stop with zero | nil
        · omega
        · contradiction
      unfold copyRecords
      rw [if_pos (BitVec.le_def.mpr full)]
      rfl

theorem copyRecords_copied {entry : MemoryLimitationEntry} {rest : List MemoryLimitationEntry}
    {count : SizeT} {tmp : ByteMemory} (room : count.toNat < maxEntries.toNat)
    (copies : env.Copies (recordAddress buffer count.toNat) sizeofMemoryLimitation) :
    complete env (copyRecords buffer maxEntries (entry :: rest) count tmp) machine =
      complete env (copyRecords buffer maxEntries rest (count + 1) (fillTmp tmp entry))
        { machine with
          user := machine.user.store (recordAddress buffer count.toNat)
            (recordBytes (tmp.load 4 4) entry) } := by
  have notFull : ¬ count ≥ maxEntries := by
    rw [ge_iff_le, BitVec.le_def]
    omega
  have length : sizeofMemoryLimitation = (recordBytes (tmp.load 4 4) entry).length := by
    rw [recordBytes_length (by simp)]
  rw [length] at copies
  conv_lhs => unfold copyRecords
  rw [if_neg notFull]
  unfold recordAddress at copies ⊢
  simp [Environment.copyToUser_of_copies copies, fillTmp_load]

theorem copyRecords_failed {entry : MemoryLimitationEntry} {rest : List MemoryLimitationEntry}
    {count : SizeT} {tmp : ByteMemory} (room : count.toNat < maxEntries.toNat)
    (fails : ¬ env.Copies (recordAddress buffer count.toNat) sizeofMemoryLimitation) :
    complete env (copyRecords buffer maxEntries (entry :: rest) count tmp) machine =
      (.error (-efault),
        { machine with
          user := (env.copyToUser (recordAddress buffer count.toNat)
            (recordBytes (tmp.load 4 4) entry) machine.user).2 }) := by
  have notFull : ¬ count ≥ maxEntries := by
    rw [ge_iff_le, BitVec.le_def]
    omega
  have length : sizeofMemoryLimitation = (recordBytes (tmp.load 4 4) entry).length := by
    rw [recordBytes_length (by simp)]
  have left : (env.copyToUser (recordAddress buffer count.toNat)
      (recordBytes (tmp.load 4 4) entry) machine.user).1 ≠ 0 := by
    rw [length] at fails
    exact mt (Environment.copyToUser_left_eq_zero (by rw [← length]; decide) machine.user).mp fails
  unfold copyRecords
  rw [if_neg notFull]
  simp only [Program.run_bind, complete_copyToUser, fillTmp_load]
  unfold recordAddress at left ⊢
  rw [if_pos left]
  rfl

/-- The part of the list the loop still has room for. -/
def batch (maxEntries : SizeT) (count : SizeT) (entries : List MemoryLimitationEntry) :
    List MemoryLimitationEntry :=
  entries.take (maxEntries.toNat - count.toNat)

theorem batch_cons (entry : MemoryLimitationEntry) (rest : List MemoryLimitationEntry)
    {count : SizeT} (room : count.toNat < maxEntries.toNat) :
    (count + 1).toNat = count.toNat + 1 ∧
      batch maxEntries count (entry :: rest) = entry :: batch maxEntries (count + 1) rest := by
  have bound := maxEntries.isLt
  have next : (count + 1).toNat = count.toNat + 1 := by
    rw [BitVec.toNat_add, Nat.mod_eq_of_lt]
    · rfl
    · have one : (1 : SizeT).toNat = 1 := rfl
      omega
  refine ⟨next, ?_⟩
  unfold batch
  rw [next, show maxEntries.toNat - count.toNat = maxEntries.toNat - (count.toNat + 1) + 1 by omega,
    List.take_succ_cons]

/-- When every copy completes, the loop leaves the records of the batch side by
side from its first position. -/
theorem copyRecords_delivers {entries : List MemoryLimitationEntry} {count : SizeT}
    {tmp : ByteMemory}
    (copies : ∀ index < (batch maxEntries count entries).length,
      env.Copies (recordAddress buffer (count.toNat + index)) sizeofMemoryLimitation) :
    complete env (copyRecords buffer maxEntries entries count tmp) machine =
      (.ok (BitVec.ofNat 64 (count.toNat + (batch maxEntries count entries).length)),
        { machine with
          user := machine.user.store (recordAddress buffer count.toNat)
            (recordsBytes (tmp.load 4 4) (batch maxEntries count entries)) }) := by
  induction entries generalizing count tmp machine with
  | nil =>
      rw [copyRecords_stop env machine tmp (by simp)]
      simp [batch, recordsBytes]
  | cons entry rest inductionHypothesis =>
      by_cases room : count.toNat < maxEntries.toNat
      · obtain ⟨next, split⟩ := batch_cons entry rest room
        rw [split] at copies ⊢
        have first := copies 0 (by simp)
        rw [copyRecords_copied env machine room first, inductionHypothesis]
        · have place : recordAddress buffer (count.toNat + 1) = recordAddress buffer count.toNat +
              (recordBytes (tmp.load 4 4) entry).length := by
            rw [recordAddress_succ, recordBytes_length (by simp)]
          simp only [next, fillTmp_padding, place, ByteMemory.store_store_append, recordsBytes,
            List.flatMap_cons, List.length_cons, Nat.add_assoc, Nat.add_comm 1]
        · intro index below
          have later := copies (index + 1) (by simpa using below)
          rwa [next, Nat.add_assoc, Nat.add_comm 1]
      · have stop : batch maxEntries count (entry :: rest) = [] := by
          unfold batch
          rw [Nat.sub_eq_zero_of_le (by omega), List.take_zero]
        rw [copyRecords_stop env machine tmp stop, stop]
        simp [recordsBytes]

/-- When the copy at position `failing` is the first that does not complete,
the records before it stand as above and the failing copy comes last. -/
theorem copyRecords_faults {entries : List MemoryLimitationEntry} {count : SizeT}
    {tmp : ByteMemory} (failing : Nat) (entry : MemoryLimitationEntry)
    (inBatch : (batch maxEntries count entries)[failing]? = some entry)
    (copies : ∀ index < failing,
      env.Copies (recordAddress buffer (count.toNat + index)) sizeofMemoryLimitation)
    (fails : ¬ env.Copies (recordAddress buffer (count.toNat + failing)) sizeofMemoryLimitation) :
    complete env (copyRecords buffer maxEntries entries count tmp) machine =
      (.error (-efault),
        { machine with
          user := (env.copyToUser (recordAddress buffer (count.toNat + failing))
            (recordBytes (tmp.load 4 4) entry)
            (machine.user.store (recordAddress buffer count.toNat)
              (recordsBytes (tmp.load 4 4)
                ((batch maxEntries count entries).take failing)))).2 }) := by
  induction entries generalizing count tmp machine failing with
  | nil => simp [batch] at inBatch
  | cons head rest inductionHypothesis =>
      have room : count.toNat < maxEntries.toNat := by
        by_contra full
        unfold batch at inBatch
        rw [Nat.sub_eq_zero_of_le (by omega), List.take_zero] at inBatch
        simp at inBatch
      obtain ⟨next, split⟩ := batch_cons head rest room
      rw [split] at inBatch ⊢
      cases failing with
      | zero =>
          obtain rfl : head = entry := by simpa using inBatch
          rw [Nat.add_zero] at fails
          rw [copyRecords_failed env machine room fails]
          simp [recordsBytes]
      | succ failing =>
          have shift : count.toNat + (failing + 1) = (count + 1).toNat + failing := by omega
          have inTail : (batch maxEntries (count + 1) rest)[failing]? = some entry := by
            simpa using inBatch
          rw [copyRecords_copied env machine room (copies 0 (by omega)), shift,
            inductionHypothesis _ failing inTail]
          · have place : recordAddress buffer (count.toNat + 1) =
                recordAddress buffer count.toNat + (recordBytes (tmp.load 4 4) head).length := by
              rw [recordAddress_succ, recordBytes_length (by simp)]
            simp only [next, fillTmp_padding, place, ByteMemory.store_store_append, recordsBytes,
              List.take_succ_cons, List.flatMap_cons]
          · intro index below
            have later := copies (index + 1) (by omega)
            rwa [next, Nat.add_assoc, Nat.add_comm 1]
          · rwa [shift] at fails

end Loop

/-! ### The whole call -/

section Outcomes

variable (env : Environment) (machine : Machine) {buffer returned : Nat} {maxEntries : SizeT}

/-- The bytes of `tmp` that no member covers, as the call finds them. -/
def padding (env : Environment) : List Byte := (env.stack .tmp).load 4 4

theorem padding_length (env : Environment) : (padding env).length = 4 := by
  simp [padding]

theorem records_end (buffer : Nat) (entries : List MemoryLimitationEntry) :
    buffer + (recordsBytes (padding env) entries).length = recordAddress buffer entries.length := by
  rw [recordsBytes_length (padding_length env)]
  rfl

/-- Either every record copy completes or one is the first that does not. -/
theorem copies_or_first_failing (buffer count : Nat) :
    (∀ index < count, env.Copies (recordAddress buffer index) sizeofMemoryLimitation) ∨
      ∃ failing < count,
        (∀ index < failing, env.Copies (recordAddress buffer index) sizeofMemoryLimitation) ∧
          ¬ env.Copies (recordAddress buffer failing) sizeofMemoryLimitation := by
  induction count with
  | zero => exact Or.inl (by simp)
  | succ count inductionHypothesis =>
      rcases inductionHypothesis with copies | ⟨failing, below, first⟩
      · by_cases last : env.Copies (recordAddress buffer count) sizeofMemoryLimitation
        · left
          intro index below
          rcases Nat.lt_succ_iff_lt_or_eq.mp below with earlier | rfl
          · exact copies index earlier
          · exact last
        · exact Or.inr ⟨count, Nat.lt_succ_self count, copies, last⟩
      · exact Or.inr ⟨failing, Nat.lt_succ_of_lt below, first⟩

/-- The entries the call delivers when nothing fails. -/
def delivered (machine : Machine) (maxEntries : SizeT) : List MemoryLimitationEntry :=
  (machine.heads .shared).take maxEntries.toNat

theorem count_zero : (0 : SizeT).toNat = 0 := rfl

theorem batch_zero (machine : Machine) (maxEntries : SizeT) :
    batch maxEntries 0 (machine.heads .shared) = delivered machine maxEntries :=
  rfl

theorem delivered_length (machine : Machine) (maxEntries : SizeT) :
    (delivered machine maxEntries).length =
      min (machine.heads .shared).length maxEntries.toNat := by
  unfold delivered
  rw [List.length_take, Nat.min_comm]

/-- The arguments pass the checks at the top of the call. -/
structure Accepted (buffer : Nat) (maxEntries : SizeT) (returned : Nat) : Prop where
  room : 1 ≤ maxEntries.toNat
  buffer : buffer ≠ 0
  returned : returned ≠ 0

theorem accepted_iff :
    Accepted buffer maxEntries returned ↔ ¬ (maxEntries ≤ 0 ∨ buffer = 0 ∨ returned = 0) := by
  constructor
  · rintro ⟨room, nonnullBuffer, nonnullReturned⟩
    refine not_or.mpr ⟨?_, not_or.mpr ⟨nonnullBuffer, nonnullReturned⟩⟩
    rw [BitVec.le_def]
    exact Nat.not_le.mpr room
  · intro passed
    obtain ⟨room, nonnull⟩ := not_or.mp passed
    obtain ⟨nonnullBuffer, nonnullReturned⟩ := not_or.mp nonnull
    rw [BitVec.le_def] at room
    exact ⟨Nat.not_le.mp room, nonnullBuffer, nonnullReturned⟩

theorem getMemoryLimits_refused (refused : ¬ Accepted buffer maxEntries returned) :
    complete env (getMemoryLimits buffer maxEntries returned) machine = (-einval, machine) := by
  rw [accepted_iff, not_not] at refused
  unfold getMemoryLimits
  rcases refused with empty | null
  · rw [if_pos empty]
    rfl
  · rw [if_pos null]
    split <;> rfl

section Accepted

variable (accepted : Accepted buffer maxEntries returned)

include accepted

theorem getMemoryLimits_of_loop_error {code : Int} {after : Machine}
    (loop : complete env
      (copyRecords buffer maxEntries (machine.heads .shared) 0 (env.stack .tmp)) machine =
        (.error code, after)) :
    complete env (getMemoryLimits buffer maxEntries returned) machine = (code, after) := by
  obtain ⟨nonzero, nonnull⟩ := not_or.mp (accepted_iff.mp accepted)
  unfold getMemoryLimits
  rw [if_neg nonzero, if_neg nonnull]
  simp only [Program.run_bind, complete_stackSlot, complete_listEntries, memoryLimitedProcesses,
    loop, Program.run_pure]

theorem getMemoryLimits_of_loop_ok {count : SizeT} {after : Machine}
    (loop : complete env
      (copyRecords buffer maxEntries (machine.heads .shared) 0 (env.stack .tmp)) machine =
        (.ok count, after)) :
    complete env (getMemoryLimits buffer maxEntries returned) machine =
      (if (env.copyToUser returned (leBytes 8 count.toNat) after.user).1 = 0 then count.toInt
        else -efault,
        { after with user := (env.copyToUser returned (leBytes 8 count.toNat) after.user).2 }) := by
  obtain ⟨nonzero, nonnull⟩ := not_or.mp (accepted_iff.mp accepted)
  unfold getMemoryLimits
  rw [if_neg nonzero, if_neg nonnull]
  simp only [Program.run_bind, complete_stackSlot, complete_listEntries, memoryLimitedProcesses,
    loop, complete_copyToUser]
  by_cases copied : (env.copyToUser returned (leBytes 8 count.toNat) after.user).1 = 0
  · simp [copied]
  · simp [copied]

/-- Every record copy completes: the count is copied last. -/
theorem getMemoryLimits_copied
    (copies : ∀ index < (delivered machine maxEntries).length,
      env.Copies (recordAddress buffer index) sizeofMemoryLimitation) :
    complete env (getMemoryLimits buffer maxEntries returned) machine =
      (if (env.copyToUser returned (leBytes 8 (delivered machine maxEntries).length)
            (machine.user.store buffer
              (recordsBytes (padding env) (delivered machine maxEntries)))).1 = 0
        then (BitVec.ofNat 64 (delivered machine maxEntries).length).toInt else -efault,
        { machine with
          user := (env.copyToUser returned (leBytes 8 (delivered machine maxEntries).length)
            (machine.user.store buffer
              (recordsBytes (padding env) (delivered machine maxEntries)))).2 }) := by
  have loop : complete env
      (copyRecords buffer maxEntries (machine.heads .shared) 0 (env.stack .tmp)) machine =
        (.ok (BitVec.ofNat 64 (delivered machine maxEntries).length),
          { machine with
            user := machine.user.store buffer
              (recordsBytes (padding env) (delivered machine maxEntries)) }) := by
    rw [copyRecords_delivers env machine]
    · simp only [batch_zero, count_zero, recordAddress_zero, Nat.zero_add]
      rfl
    · simpa only [batch_zero, count_zero, Nat.zero_add] using copies
  have small : (BitVec.ofNat 64 (delivered machine maxEntries).length).toNat =
      (delivered machine maxEntries).length := by
    have bound := maxEntries.isLt
    rw [BitVec.toNat_ofNat, Nat.mod_eq_of_lt]
    rw [delivered_length]
    omega
  rw [getMemoryLimits_of_loop_ok env machine accepted loop, small]

/-- The copy at position `failing` is the first that does not complete: the
call stops there. -/
theorem getMemoryLimits_faulted {failing : Nat} {entry : MemoryLimitationEntry}
    (inside : (delivered machine maxEntries)[failing]? = some entry)
    (copies : ∀ index < failing, env.Copies (recordAddress buffer index) sizeofMemoryLimitation)
    (fails : ¬ env.Copies (recordAddress buffer failing) sizeofMemoryLimitation) :
    complete env (getMemoryLimits buffer maxEntries returned) machine =
      (-efault,
        { machine with
          user := (env.copyToUser (recordAddress buffer failing) (recordBytes (padding env) entry)
            (machine.user.store buffer (recordsBytes (padding env)
              ((delivered machine maxEntries).take failing)))).2 }) := by
  apply getMemoryLimits_of_loop_error env machine accepted
  rw [copyRecords_faults env machine failing entry]
  · simp only [batch_zero, count_zero, recordAddress_zero, Nat.zero_add]
    rfl
  · simpa only [batch_zero] using inside
  · simpa only [count_zero, Nat.zero_add] using copies
  · simpa only [count_zero, Nat.zero_add] using fails

end Accepted

end Outcomes

end UsacSyscalls.Project3
