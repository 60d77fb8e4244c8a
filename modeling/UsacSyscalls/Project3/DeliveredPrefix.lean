import UsacSyscalls.Project3.Delivery

/-!
Contract: `get_memory_limits` delivers an exact prefix of the registry.

Owns reading records back from user memory, and the result that over every
reachable registry the call returns the first `max_entries` entries in list
order without duplicates, or stops at the first record that cannot be copied
and leaves the counter alone.

Does not own the bytes outside the caller's regions; that is `WriteFrame`.
-/

set_option autoImplicit false

namespace UsacSyscalls.Project3

open UsacSyscalls.Foundation
open UsacSyscalls.Kernel

/-! ### Reading records back -/

theorem recordAt_of_load {user : ByteMemory} {buffer : Nat} {index : Nat}
    {gap : List Byte} (width : gap.length = 4) {entry : MemoryLimitationEntry}
    (loaded : user.load (recordAddress buffer index) sizeofMemoryLimitation =
      recordBytes gap entry) :
    recordAt user buffer index = (entry.pid, entry.memoryLimit) := by
  rw [show sizeofMemoryLimitation = 4 + (4 + 8) from rfl, ByteMemory.load_add,
    ByteMemory.load_add] at loaded
  unfold recordBytes at loaded
  obtain ⟨pidBytes, rest⟩ := List.append_inj loaded (by simp)
  obtain ⟨-, limitBytes⟩ := List.append_inj rest (by simp [width])
  have pidField : getField user (recordAddress buffer index) 4 32 = entry.pid :=
    getField_eq rfl pidBytes
  have limitField : getField user (recordAddress buffer index + 8) 8 64 = entry.memoryLimit :=
    getField_eq rfl (by rwa [Nat.add_assoc] at limitBytes)
  exact Prod.ext pidField limitField

theorem load_record {gap : List Byte} (width : gap.length = 4) (user : ByteMemory)
    (buffer : Nat) {entries : List MemoryLimitationEntry} {index : Nat}
    {entry : MemoryLimitationEntry} (inside : entries[index]? = some entry) :
    (user.store buffer (recordsBytes gap entries)).load (recordAddress buffer index)
      sizeofMemoryLimitation = recordBytes gap entry := by
  obtain ⟨below, rfl⟩ := List.getElem?_eq_some_iff.mp inside
  have split : recordsBytes gap entries = recordsBytes gap (entries.take index) ++
      (recordBytes gap entries[index] ++ recordsBytes gap (entries.drop (index + 1))) := by
    unfold recordsBytes
    rw [← List.flatMap_cons, ← List.flatMap_append, ← List.drop_eq_getElem_cons below,
      List.take_append_drop]
  have place : recordAddress buffer index =
      buffer + (recordsBytes gap (entries.take index)).length := by
    rw [recordsBytes_length width, List.length_take, Nat.min_eq_left (Nat.le_of_lt below)]
    rfl
  rw [split, place, ← recordBytes_length width entries[index]]
  exact ByteMemory.load_store_middle user buffer _ _ _

/-- A record that stands in memory after the records were stored there is read
back, as long as nothing since has touched it. -/
theorem recordAt_of_stored (env : Environment) (user : ByteMemory) {after : ByteMemory}
    {buffer index : Nat} {entries : List MemoryLimitationEntry} {entry : MemoryLimitationEntry}
    (inside : entries[index]? = some entry)
    (kept : after.load (recordAddress buffer index) sizeofMemoryLimitation =
      (user.store buffer (recordsBytes (padding env) entries)).load
        (recordAddress buffer index) sizeofMemoryLimitation) :
    recordAt after buffer index = (entry.pid, entry.memoryLimit) :=
  recordAt_of_load (padding_length env)
    (kept.trans (load_record (padding_length env) user buffer inside))

/-! ### The delivered prefix -/

/-- A call that delivered everything it had room for. -/
structure Delivered (before : Machine) (buffer : Nat) (maxEntries : SizeT)
    (returned : Nat) (outcome : Int × Machine) : Prop where
  code : outcome.1 = (min (before.heads .shared).length maxEntries.toNat : Nat)
  records : ∀ index entry, index < maxEntries.toNat →
    (before.heads .shared)[index]? = some entry →
      recordAt outcome.2.user buffer index = (entry.pid, entry.memoryLimit)
  rest : ∀ address,
    recordAddress buffer (min (before.heads .shared).length maxEntries.toNat) ≤ address →
      address < recordAddress buffer maxEntries.toNat →
        outcome.2.user address = before.user address
  returned : min (before.heads .shared).length maxEntries.toNat < 2 ^ 31 →
    (getField outcome.2.user returned 4 32).toInt =
      (min (before.heads .shared).length maxEntries.toNat : Nat)

/-- A call that stopped at the first record it could not copy. -/
structure StoppedAt (before : Machine) (buffer returned : Nat) (failing : Nat)
    (outcome : Int × Machine) : Prop where
  code : outcome.1 = -efault
  records : ∀ index entry, index < failing →
    (before.heads .shared)[index]? = some entry →
      recordAt outcome.2.user buffer index = (entry.pid, entry.memoryLimit)
  returned : ∀ offset < 8,
    outcome.2.user (returned + offset) = before.user (returned + offset)

theorem toInt_ofNat_of_small {bits number : Nat} (small : 2 * number < 2 ^ bits) :
    (BitVec.ofNat bits number).toInt = number := by
  have value : (BitVec.ofNat bits number).toNat = number := by
    rw [BitVec.toNat_ofNat, Nat.mod_eq_of_lt (by omega)]
  rw [BitVec.toInt_eq_toNat_of_lt (by rwa [value]), value]

section Prefix

variable {env : Environment} {machine : Machine} {buffer returned : Nat} {maxEntries : SizeT}
  (accepted : Accepted buffer maxEntries returned)
  (apart : recordAddress buffer maxEntries.toNat ≤ returned ∨ returned + 8 ≤ buffer)

/-- The four low bytes of a stored count, read as an `int`. -/
theorem getField_count {count : Nat} (small : count < 2 ^ 31) (user : ByteMemory) (base : Nat) :
    (getField (user.store base (leBytes 8 count)) base 4 32).toInt = count := by
  have value : (BitVec.ofNat 32 count).toNat = count := by
    rw [BitVec.toNat_ofNat, Nat.mod_eq_of_lt (by omega)]
  have low : (user.store base (leBytes 8 count)).load base 4 =
      leBytes 4 (BitVec.ofNat 32 count).toNat := by
    have split : leBytes 8 count = leBytes 4 count ++ leBytes 4 (count / 256 ^ 4) :=
      leBytes_add 4 4 count
    have front := ByteMemory.load_store_middle user base [] (leBytes 4 count)
      (leBytes 4 (count / 256 ^ 4))
    rw [leBytes_length] at front
    rw [value, split]
    exact front
  rw [getField_eq rfl low, toInt_ofNat_of_small (by omega)]

/-- Everything the call copies goes through, and the count does not land on
the records. -/
structure PointersWork (env : Environment) (machine : Machine) (buffer : Nat) (maxEntries : SizeT)
    (returned : Nat) : Prop where
  records : ∀ index < (delivered machine maxEntries).length,
    env.Copies (recordAddress buffer index) sizeofMemoryLimitation
  count : env.Copies returned 8
  apart : recordAddress buffer (delivered machine maxEntries).length ≤ returned ∨
    returned + 8 ≤ buffer

section PointersWork

variable (work : PointersWork env machine buffer maxEntries returned)

include accepted work

theorem complete_of_pointersWork :
    complete env (getMemoryLimits buffer maxEntries returned) machine =
      ((BitVec.ofNat 64 (delivered machine maxEntries).length).toInt,
        { machine with
          user := (machine.user.store buffer
            (recordsBytes (padding env) (delivered machine maxEntries))).store returned
              (leBytes 8 (delivered machine maxEntries).length) }) := by
  have counted : env.Copies returned (leBytes 8 (delivered machine maxEntries).length).length := by
    rw [leBytes_length]
    exact work.count
  rw [getMemoryLimits_copied env machine accepted work.records,
    Environment.copyToUser_of_copies counted, if_pos rfl]

theorem recordAt_of_pointersWork {index : Nat} {entry : MemoryLimitationEntry}
    (inside : (delivered machine maxEntries)[index]? = some entry) :
    recordAt (complete env (getMemoryLimits buffer maxEntries returned) machine).2.user buffer
      index = (entry.pid, entry.memoryLimit) := by
  rw [complete_of_pointersWork accepted work]
  apply recordAt_of_stored env machine.user inside
  apply ByteMemory.load_store_disjoint
  obtain ⟨below, -⟩ := List.getElem?_eq_some_iff.mp inside
  have upper := recordAddress_add_le buffer below
  have lower := le_recordAddress buffer index
  have apart := work.apart
  rw [leBytes_length]
  omega

end PointersWork

include accepted apart

theorem delivered_of_writable
    (bufferWritable : env.Writable buffer (sizeofMemoryLimitation * maxEntries.toNat))
    (returnedWritable : env.Writable returned 8)
    (short : (machine.heads .shared).length < 2 ^ 31) :
    Delivered machine buffer maxEntries returned
      (complete env (getMemoryLimits buffer maxEntries returned) machine) := by
  have length := delivered_length machine maxEntries
  have fits : recordAddress buffer (delivered machine maxEntries).length ≤
      recordAddress buffer maxEntries.toNat :=
    Nat.add_le_add_left (Nat.mul_le_mul_left _ (by omega)) _
  have work : PointersWork env machine buffer maxEntries returned := by
    refine ⟨?_, returnedWritable.copies (Nat.le_refl _) (Nat.le_refl _), by omega⟩
    intro index below
    exact bufferWritable.copies (le_recordAddress buffer index)
      (recordAddress_add_le buffer (by omega))
  have outcome := complete_of_pointersWork accepted work
  constructor
  case code =>
    rw [outcome, toInt_ofNat_of_small (by omega), length]
  case records =>
    intro index entry below inside
    apply recordAt_of_pointersWork accepted work
    unfold delivered
    rw [List.getElem?_take_of_lt below, inside]
  case rest =>
    intro address lower upper
    have recordsEnd := records_end env buffer (delivered machine maxEntries)
    have afterBuffer := le_recordAddress buffer (delivered machine maxEntries).length
    rw [← length] at lower
    rw [outcome]
    calc ((machine.user.store buffer _).store returned _) address
        = (machine.user.store buffer
            (recordsBytes (padding env) (delivered machine maxEntries))) address :=
          ByteMemory.store_outside _ (by rw [leBytes_length]; omega)
      _ = machine.user address := ByteMemory.store_outside _ (by omega)
  case returned =>
    intro small
    rw [← length] at small ⊢
    rw [outcome]
    exact getField_count small _ _

theorem stoppedAt_of_fault {failing : Nat}
    (inside : failing < min (machine.heads .shared).length maxEntries.toNat)
    (copies : ∀ index < failing, env.Copies (recordAddress buffer index) sizeofMemoryLimitation)
    (fails : ¬ env.Copies (recordAddress buffer failing) sizeofMemoryLimitation) :
    StoppedAt machine buffer returned failing
      (complete env (getMemoryLimits buffer maxEntries returned) machine) := by
  rw [← delivered_length] at inside
  have entryAt := List.getElem?_eq_getElem inside
  have room : failing < maxEntries.toNat := by
    rw [delivered_length] at inside
    omega
  have failingEnd := recordAddress_add_le buffer room
  have failingStart := le_recordAddress buffer failing
  rw [getMemoryLimits_faulted env machine accepted entryAt copies fails]
  have width := recordBytes_length (padding_length env) (delivered machine maxEntries)[failing]
  constructor
  case code => rfl
  case records =>
    intro index entry before atIndex
    have inTaken : ((delivered machine maxEntries).take failing)[index]? = some entry := by
      unfold delivered
      rw [List.getElem?_take_of_lt before, List.getElem?_take_of_lt (by omega), atIndex]
    refine recordAt_of_stored env machine.user inTaken (ByteMemory.load_congr ?_)
    intro address lower upper
    have recordEnd := recordAddress_add_le buffer before
    exact Environment.copyToUser_outside (by omega) _
  case returned =>
    intro offset below
    have recordsEnd := records_end env buffer ((delivered machine maxEntries).take failing)
    rw [List.length_take, Nat.min_eq_left (Nat.le_of_lt inside)] at recordsEnd
    calc (env.copyToUser _ _ _).2 (returned + offset)
        = (machine.user.store buffer (recordsBytes (padding env)
            ((delivered machine maxEntries).take failing))) (returned + offset) :=
          Environment.copyToUser_outside (by omega) _
      _ = machine.user (returned + offset) := ByteMemory.store_outside _ (by omega)

end Prefix

theorem WellFormed.take {entries : List MemoryLimitationEntry} (wellFormed : WellFormed entries)
    (count : Nat) : WellFormed (entries.take count) where
  distinct := by
    rw [List.map_take]
    exact wellFormed.distinct.take
  positive entry member := wellFormed.positive entry (List.mem_of_mem_take member)
  nonzero entry member := wellFormed.nonzero entry (List.mem_of_mem_take member)

/-- On every registry that completed calls reach from boot, `get_memory_limits`
delivers the entries in list order, latest added first, up to the room there
is; or it stops at the first record it cannot copy. The delivered pids are
distinct and positive, the limits are not zero, and the registry stays as it
was. -/
theorem getMemoryLimits_delivers_prefix (user : ByteMemory) (calls : List Call)
    (env : Environment) (buffer returned : Nat) (maxEntries : SizeT)
    (accepted : Accepted buffer maxEntries returned)
    (apart : recordAddress buffer maxEntries.toNat ≤ returned ∨ returned + 8 ≤ buffer) :
    let machine := afterCalls (.boot user) calls
    let outcome := complete env (getMemoryLimits buffer maxEntries returned) machine
    (env.Writable buffer (sizeofMemoryLimitation * maxEntries.toNat) → env.Writable returned 8 →
      Delivered machine buffer maxEntries returned outcome) ∧
    (∀ failing < min (machine.heads .shared).length maxEntries.toNat,
      (∀ index < failing, env.Copies (recordAddress buffer index) sizeofMemoryLimitation) →
      ¬ env.Copies (recordAddress buffer failing) sizeofMemoryLimitation →
        StoppedAt machine buffer returned failing outcome) ∧
    machine.heads .shared = addedEntries (.boot user) calls ∧
    WellFormed ((machine.heads .shared).take maxEntries.toNat) ∧
    outcome.2.heads = machine.heads := by
  intro machine outcome
  have invariant := reachable_invariant user calls
  refine ⟨?_, ?_, ?_, invariant.shared.take _, complete_getMemoryLimits_heads _ _ _ _ _⟩
  · intro bufferWritable returnedWritable
    exact delivered_of_writable accepted apart bufferWritable returnedWritable
      invariant.shared.length_lt
  · intro failing inside copies fails
    exact stoppedAt_of_fault accepted apart inside copies fails
  · have history := shared_eq_addedEntries (boot_invariant user).statics calls
    rwa [show (Machine.boot user).heads .shared = [] from rfl, List.append_nil] at history

def threeAdds : List Call :=
  [.add (.quiet 7) 7 8192, .add (.quiet 8) 8 4096, .add (.quiet 9) 9 16384]

/-- A caller whose memory ends at 8192. -/
def endingAt8192 : Environment :=
  { Environment.quiet 7 with
    fault := fun destination length =>
      if 8192 < destination + length then some ⟨1, by decide, fun _ _ _ => 0⟩ else none }

/-- Two of three entries are delivered to a writable buffer. With the second
record behind the end of memory the call fails after the first. -/
theorem getMemoryLimits_delivers_two_of_three :
    let machine := afterCalls (.boot fun _ => 0) threeAdds
    let whole := complete (.quiet 7) (getMemoryLimits 8176 2 4096) machine
    let stopped := complete endingAt8192 (getMemoryLimits 8176 2 4096) machine
    Accepted 8176 2 4096 ∧ machine.heads .shared = [⟨9, 16384⟩, ⟨8, 4096⟩, ⟨7, 8192⟩] ∧
      (whole.1 = 2 ∧ recordAt whole.2.user 8176 0 = (9, 16384) ∧
        recordAt whole.2.user 8176 1 = (8, 4096) ∧
        (getField whole.2.user 4096 4 32).toInt = 2) ∧
      stopped.1 = -efault ∧ recordAt stopped.2.user 8176 0 = (9, 16384) ∧
      stopped.2.user 4096 = 0 := by
  intro machine whole stopped
  have accepted : Accepted 8176 2 4096 := ⟨by decide, by decide, by decide⟩
  have shared : machine.heads .shared = [⟨9, 16384⟩, ⟨8, 4096⟩, ⟨7, 8192⟩] := by decide
  obtain ⟨delivers, -⟩ := getMemoryLimits_delivers_prefix (fun _ => 0) threeAdds (.quiet 7)
    8176 4096 2 accepted (by decide)
  have delivered := delivers (Environment.quiet_writable (by decide))
    (Environment.quiet_writable (by decide))
  obtain ⟨-, stops, -⟩ := getMemoryLimits_delivers_prefix (fun _ => 0) threeAdds endingAt8192
    8176 4096 2 accepted (by decide)
  have first : ∀ index < 1,
      endingAt8192.Copies (recordAddress 8176 index) sizeofMemoryLimitation := by
    intro index below
    rw [Nat.lt_one_iff.mp below]
    exact ⟨by decide, rfl⟩
  have second : ¬ endingAt8192.Copies (recordAddress 8176 1) sizeofMemoryLimitation := by
    rintro ⟨-, absurdity⟩
    cases absurdity
  have atSecond := stops 1 (by decide) first second
  refine ⟨accepted, shared, ⟨?_, ?_, ?_, ?_⟩, atSecond.code, ?_, ?_⟩
  · rw [delivered.code]
    decide
  · exact delivered.records 0 ⟨9, 16384⟩ (by decide) (by decide)
  · exact delivered.records 1 ⟨8, 4096⟩ (by decide) (by decide)
  · rw [delivered.returned (by decide)]
    decide
  · exact atSecond.records 0 ⟨9, 16384⟩ (by decide) (by decide)
  · exact atSecond.returned 0 (by decide)

end UsacSyscalls.Project3
