import UsacSyscalls.Project3.Delivery

/-!
Contract: which bytes of user memory `get_memory_limits` can change.

Owns the frame of the call for every point at which a copy can fail, and the
exact condition under which the call stays inside the records it delivers and
the `int` its caller handed over.

Does not own the contents of what is written; that is `DeliveredPrefix`.
-/

set_option autoImplicit false

namespace UsacSyscalls.Project3

open UsacSyscalls.Foundation
open UsacSyscalls.Kernel

section Frame

variable {env : Environment} {machine : Machine} {buffer returned address : Nat}
  {maxEntries : SizeT} (accepted : Accepted buffer maxEntries returned)

section Outside

variable (outside : address < buffer ∨
  recordAddress buffer (delivered machine maxEntries).length ≤ address)

include outside

theorem store_records_outside :
    (machine.user.store buffer (recordsBytes (padding env) (delivered machine maxEntries)))
      address = machine.user address := by
  apply ByteMemory.store_outside
  rw [records_end]
  exact outside

include accepted

/-- A call that stops at a record only touches the records. -/
theorem unchanged_of_failing {failing : Nat}
    (inside : failing < (delivered machine maxEntries).length)
    (copies : ∀ index < failing, env.Copies (recordAddress buffer index) sizeofMemoryLimitation)
    (fails : ¬ env.Copies (recordAddress buffer failing) sizeofMemoryLimitation) :
    (complete env (getMemoryLimits buffer maxEntries returned) machine).2.user address =
      machine.user address := by
  have failingStart := le_recordAddress buffer failing
  have failingEnd := recordAddress_add_le buffer inside
  have width := recordBytes_length (padding_length env) (delivered machine maxEntries)[failing]
  have recordsEnd := records_end env buffer ((delivered machine maxEntries).take failing)
  rw [List.length_take, Nat.min_eq_left (Nat.le_of_lt inside)] at recordsEnd
  rw [getMemoryLimits_faulted env machine accepted (List.getElem?_eq_getElem inside) copies fails]
  calc (env.copyToUser _ _ _).2 address
      = (machine.user.store buffer (recordsBytes (padding env)
          ((delivered machine maxEntries).take failing))) address :=
        Environment.copyToUser_outside (by omega) _
    _ = machine.user address := ByteMemory.store_outside _ (by omega)

/-- Whatever fails, the call only touches the records and eight bytes at the
counter. -/
theorem getMemoryLimits_frame (apart : address < returned ∨ returned + 8 ≤ address) :
    (complete env (getMemoryLimits buffer maxEntries returned) machine).2.user address =
      machine.user address := by
  rcases copies_or_first_failing env buffer (delivered machine maxEntries).length with
    copies | ⟨failing, inside, before, fails⟩
  · rw [getMemoryLimits_copied env machine accepted copies]
    calc (env.copyToUser _ _ _).2 address
        = (machine.user.store buffer
            (recordsBytes (padding env) (delivered machine maxEntries))) address :=
          Environment.copyToUser_outside (by rwa [leBytes_length]) _
      _ = machine.user address := store_records_outside outside
  · exact unchanged_of_failing accepted outside inside before fails

/-- When a record lies outside the user address space the counter is never
reached. -/
theorem unchanged_of_record_refused {index : Nat}
    (inside : index < (delivered machine maxEntries).length)
    (refused : ¬ env.AccessOk (recordAddress buffer index) sizeofMemoryLimitation) :
    (complete env (getMemoryLimits buffer maxEntries returned) machine).2.user address =
      machine.user address := by
  rcases copies_or_first_failing env buffer (delivered machine maxEntries).length with
    copies | ⟨failing, below, before, fails⟩
  · exact absurd (copies index inside).1 refused
  · exact unchanged_of_failing accepted outside below before fails

theorem unchanged_of_count_refused (refused : ¬ env.AccessOk returned 8) :
    (complete env (getMemoryLimits buffer maxEntries returned) machine).2.user address =
      machine.user address := by
  rcases copies_or_first_failing env buffer (delivered machine maxEntries).length with
    copies | ⟨failing, below, before, fails⟩
  · rw [← leBytes_length 8 (delivered machine maxEntries).length] at refused
    rw [getMemoryLimits_copied env machine accepted copies,
      Environment.copyToUser_refused refused]
    exact store_records_outside outside
  · exact unchanged_of_failing accepted outside below before fails

end Outside

include accepted

/-- When every copy completes, eight bytes of the count stand at the counter. -/
theorem count_written (offset : Nat) (inCount : offset < 8)
    (copies : ∀ index < (delivered machine maxEntries).length,
      env.Copies (recordAddress buffer index) sizeofMemoryLimitation)
    (counted : env.Copies returned 8) :
    (complete env (getMemoryLimits buffer maxEntries returned) machine).2.user
      (returned + offset) = (leBytes 8 (delivered machine maxEntries).length).getD offset 0 := by
  rw [← leBytes_length 8 (delivered machine maxEntries).length] at counted
  rw [getMemoryLimits_copied env machine accepted copies,
    Environment.copyToUser_of_copies counted]
  exact ByteMemory.store_inside _ (by rwa [leBytes_length])

end Frame

/-- Whatever user memory holds and whichever copy fails, the call changes no
byte outside the delivered records and the four bytes of the caller's `int`. -/
def StaysInside (env : Environment) (machine : Machine) (buffer : Nat) (maxEntries : SizeT)
    (returned : Nat) : Prop :=
  ∀ (fault : Nat → Nat → Option Fault) (user : ByteMemory) (address : Nat),
    (address < buffer ∨ recordAddress buffer
      (min (machine.heads .shared).length maxEntries.toNat) ≤ address) →
    (address < returned ∨ returned + 4 ≤ address) →
      (complete { env with fault := fault } (getMemoryLimits buffer maxEntries returned)
        { machine with user := user }).2.user address = user address

/-- The call stays inside what its caller handed over exactly when the count is
never copied, because a record or the counter ends above the user address
space, or when the four bytes behind the `int` belong to the delivered
records. -/
theorem staysInside_iff (env : Environment) (machine : Machine) (buffer : Nat)
    (maxEntries : SizeT) (returned : Nat) (accepted : Accepted buffer maxEntries returned) :
    StaysInside env machine buffer maxEntries returned ↔
      (∃ index < min (machine.heads .shared).length maxEntries.toNat,
        ¬ env.AccessOk (recordAddress buffer index) sizeofMemoryLimitation) ∨
      ¬ env.AccessOk returned 8 ∨
      (buffer ≤ returned + 4 ∧ returned + 8 ≤
        recordAddress buffer (min (machine.heads .shared).length maxEntries.toNat)) := by
  unfold StaysInside
  rw [← delivered_length]
  constructor
  · intro stays
    by_contra reaches
    obtain ⟨recordsOk, reaches⟩ := not_or.mp reaches
    obtain ⟨countOk, uncovered⟩ := not_or.mp reaches
    rw [not_not] at countOk
    -- Of the bytes behind the counter, the first or the last is no record byte.
    obtain ⟨offset, lower, upper, outside⟩ : ∃ offset, 4 ≤ offset ∧ offset < 8 ∧
        (returned + offset < buffer ∨
          recordAddress buffer (delivered machine maxEntries).length ≤ returned + offset) := by
      by_cases before : returned + 4 < buffer
      · exact ⟨4, by omega, by omega, Or.inl before⟩
      · exact ⟨7, by omega, by omega, Or.inr (by omega)⟩
    let written := (leBytes 8 (delivered machine maxEntries).length).getD offset 0
    let user : ByteMemory := fun _ => written + 1
    have copies : ∀ index < (delivered { machine with user := user } maxEntries).length,
        Environment.Copies { env with fault := fun _ _ => none } (recordAddress buffer index)
          sizeofMemoryLimitation := by
      intro index below
      refine ⟨?_, rfl⟩
      by_contra refused
      exact recordsOk ⟨index, below, refused⟩
    have kept := stays (fun _ _ => none) user (returned + offset) outside (by omega)
    rw [count_written accepted offset upper copies ⟨countOk, rfl⟩] at kept
    have different : written ≠ written + 1 := by
      intro same
      have successor := congrArg BitVec.toNat same
      rw [BitVec.toNat_add] at successor
      have bound := written.isLt
      have one : (1 : Byte).toNat = 1 := rfl
      omega
    exact different kept
  · intro condition fault user address outside apart
    rcases condition with ⟨index, inside, refused⟩ | refused | ⟨lower, upper⟩
    · exact unchanged_of_record_refused accepted outside inside refused
    · exact unchanged_of_count_refused accepted outside refused
    · exact getMemoryLimits_frame accepted outside (by omega)

theorem staysInside_with_counter_before_records :
    Accepted 4100 1 4096 ∧
      StaysInside (.quiet 7) (afterCalls (.boot fun _ => 0) [.add (.quiet 7) 7 8192])
        4100 1 4096 :=
  have accepted : Accepted 4100 1 4096 := ⟨by decide, by decide, by decide⟩
  ⟨accepted, (staysInside_iff (.quiet 7) _ 4100 1 4096 accepted).mpr
    (Or.inr (Or.inr (by decide)))⟩

/-- On the empty registry the call clears a byte next to its caller's `int`. -/
theorem getMemoryLimits_clears_neighbour :
    let machine := Machine.boot fun _ => 0xff
    let outcome := complete (.quiet 7) (getMemoryLimits 4096 1 8192) machine
    outcome.1 = 0 ∧ machine.user 8196 = 0xff ∧ outcome.2.user 8196 = 0 := by
  decide

end UsacSyscalls.Project3
