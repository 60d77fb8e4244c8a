import UsacSyscalls.Project3.Delivery

/-!
Contract: kernel stack contents in what `get_memory_limits` copies.

Owns the comparison of two runs that differ only in the stack memory under
`tmp`, and the exact condition under which their user memories agree for every
behaviour of the copies.

Does not own the statistics syscalls; their locals are compared in
`Statistics`.
-/

set_option autoImplicit false

namespace UsacSyscalls.Project3

open UsacSyscalls.Foundation
open UsacSyscalls.Kernel

/-- The environment with the given copy faults and the given bytes under
`tmp`. -/
def withTmp (env : Environment) (fault : Nat → Nat → Option Fault) (tmp : ByteMemory) :
    Environment :=
  { env with fault := fault, stack := Function.update env.stack .tmp tmp }

theorem padding_withTmp (env : Environment) (fault : Nat → Nat → Option Fault)
    (tmp : ByteMemory) : padding (withTmp env fault tmp) = tmp.load 4 4 := by
  simp [padding, withTmp]

/-- The user memory a call leaves, with the given faults and stack bytes. -/
def userAfter (env : Environment) (machine : Machine) (buffer : Nat) (maxEntries : SizeT)
    (returned : Nat) (fault : Nat → Nat → Option Fault) (user tmp : ByteMemory) : ByteMemory :=
  (complete (withTmp env fault tmp) (getMemoryLimits buffer maxEntries returned)
    { machine with user := user }).2.user

/-- Two runs from the same registry, arguments and user memory, with the same
copies failing, end in the same user memory. -/
def HidesTmp (env : Environment) (machine : Machine) (buffer : Nat) (maxEntries : SizeT)
    (returned : Nat) : Prop :=
  ∀ (fault : Nat → Nat → Option Fault) (user left right : ByteMemory),
    userAfter env machine buffer maxEntries returned fault user left =
      userAfter env machine buffer maxEntries returned fault user right

/-! ### Runs that copy no record -/

section Hidden

variable (env : Environment) (machine : Machine) {buffer returned : Nat} {maxEntries : SizeT}
  (fault : Nat → Nat → Option Fault) (user tmp : ByteMemory)

theorem userAfter_of_refused (refused : ¬ Accepted buffer maxEntries returned) :
    userAfter env machine buffer maxEntries returned fault user tmp = user := by
  unfold userAfter
  rw [getMemoryLimits_refused _ _ refused]

theorem userAfter_of_empty (accepted : Accepted buffer maxEntries returned)
    (empty : machine.heads .shared = []) :
    userAfter env machine buffer maxEntries returned fault user tmp =
      (({ env with fault := fault } : Environment).copyToUser returned (leBytes 8 0) user).2 := by
  have nothing : delivered { machine with user := user } maxEntries = [] := by
    simp [delivered, empty]
  unfold userAfter
  rw [getMemoryLimits_copied _ _ accepted (by rw [nothing]; simp), nothing]
  simp only [recordsBytes, List.flatMap_nil, ByteMemory.store_nil, List.length_nil]
  rfl

theorem userAfter_of_record_refused (accepted : Accepted buffer maxEntries returned)
    (nonempty : machine.heads .shared ≠ [])
    (refused : ¬ env.AccessOk buffer sizeofMemoryLimitation) :
    userAfter env machine buffer maxEntries returned fault user tmp = user := by
  obtain ⟨entry, rest, shared⟩ := List.exists_cons_of_ne_nil nonempty
  have first : (delivered { machine with user := user } maxEntries)[0]? = some entry := by
    unfold delivered
    rw [List.getElem?_take_of_lt accepted.room]
    simp [shared]
  have fails : ¬ (withTmp env fault tmp).Copies (recordAddress buffer 0)
      sizeofMemoryLimitation := fun copies => refused copies.1
  have refusedCopy : ¬ (withTmp env fault tmp).AccessOk buffer
      (recordBytes (padding (withTmp env fault tmp)) entry).length := by
    rw [recordBytes_length (padding_length _)]
    exact refused
  unfold userAfter
  rw [getMemoryLimits_faulted _ _ accepted first (by simp) fails, recordAddress_zero,
    Environment.copyToUser_refused refusedCopy]
  simp [recordsBytes]

end Hidden

/-! ### Runs that copy the first record and nothing else -/

/-- A fault that leaves user memory as it was. -/
def untouched (destination : Nat) : Fault where
  left := 1
  left_pos := Nat.one_pos
  residue := fun user _ offset => user (destination + offset)

def onlyFirstRecord (buffer : Nat) (destination length : Nat) : Option Fault :=
  if destination = buffer ∧ length = sizeofMemoryLimitation then none
  else some (untouched destination)

theorem store_same_bytes (user : ByteMemory) (base count : Nat) :
    user.store base ((List.range count).map fun offset => user (base + offset)) = user := by
  funext address
  by_cases inside : base ≤ address ∧ address < base + count
  · obtain ⟨offset, rfl⟩ : ∃ offset, address = base + offset := ⟨address - base, by omega⟩
    rw [ByteMemory.store_inside _ (by simp; omega)]
    simp [List.getD_eq_getElem?_getD, show offset < count by omega]
  · exact ByteMemory.store_outside _ (by simp; omega)

theorem copyToUser_untouched {env : Environment} {destination : Nat} {bytes : List Byte}
    (faults : env.fault destination bytes.length = some (untouched destination))
    (user : ByteMemory) : (env.copyToUser destination bytes user).2 = user := by
  unfold Environment.copyToUser
  by_cases access : env.AccessOk destination bytes.length
  · rw [if_pos access, faults]
    exact store_same_bytes user destination bytes.length
  · rw [if_neg access]

section Disclosed

variable {env : Environment} {machine : Machine} {buffer returned : Nat} {maxEntries : SizeT}
  (accepted : Accepted buffer maxEntries returned) (user tmp : ByteMemory)
  {entry : MemoryLimitationEntry} {rest : List MemoryLimitationEntry}
  (shared : machine.heads .shared = entry :: rest)
  (access : env.AccessOk buffer sizeofMemoryLimitation)

include accepted shared access

theorem userAfter_onlyFirstRecord :
    userAfter env machine buffer maxEntries returned (onlyFirstRecord buffer) user tmp =
      user.store buffer (recordBytes (tmp.load 4 4) entry) := by
  have first : (delivered { machine with user := user } maxEntries).take 1 = [entry] := by
    unfold delivered
    rw [List.take_take, Nat.min_eq_left accepted.room]
    simp [shared]
  have copies : ∀ index < 1, (withTmp env (onlyFirstRecord buffer) tmp).Copies
      (recordAddress buffer index) sizeofMemoryLimitation := by
    intro index below
    obtain rfl := Nat.lt_one_iff.mp below
    exact ⟨access, if_pos ⟨rfl, rfl⟩⟩
  have whole : recordsBytes (tmp.load 4 4) [entry] = recordBytes (tmp.load 4 4) entry := by
    simp [recordsBytes]
  unfold userAfter
  by_cases more : 1 < (delivered { machine with user := user } maxEntries).length
  · have elsewhere : onlyFirstRecord buffer (recordAddress buffer 1) sizeofMemoryLimitation =
        some (untouched (recordAddress buffer 1)) := by
      apply if_neg
      rintro ⟨same, -⟩
      have width : sizeofMemoryLimitation = 16 := rfl
      rw [recordAddress_succ, recordAddress_zero] at same
      omega
    have fails : ¬ (withTmp env (onlyFirstRecord buffer) tmp).Copies (recordAddress buffer 1)
        sizeofMemoryLimitation := by
      rintro ⟨-, completes⟩
      rw [show (withTmp env (onlyFirstRecord buffer) tmp).fault = onlyFirstRecord buffer from rfl,
        elsewhere] at completes
      contradiction
    rw [getMemoryLimits_faulted _ _ accepted (List.getElem?_eq_getElem more) copies fails, first,
      padding_withTmp, whole]
    apply copyToUser_untouched
    rw [recordBytes_length (by simp)]
    exact elsewhere
  · have single : delivered { machine with user := user } maxEntries = [entry] := by
      rw [← first, List.take_of_length_le (Nat.not_lt.mp more)]
    rw [getMemoryLimits_copied _ _ accepted (by rw [single]; exact copies), single,
      padding_withTmp, whole]
    apply copyToUser_untouched
    apply if_neg
    rintro ⟨-, same⟩
    rw [leBytes_length] at same
    contradiction

/-- Byte 4 of the stack memory under `tmp` reaches byte 4 of the buffer. -/
theorem userAfter_discloses :
    userAfter env machine buffer maxEntries returned (onlyFirstRecord buffer) user tmp
      (buffer + 4) = tmp 4 := by
  rw [userAfter_onlyFirstRecord accepted user tmp shared access,
    ByteMemory.store_inside _ (by rw [recordBytes_length (by simp)]; decide)]
  rfl

end Disclosed

/-- The stack memory under `tmp` stays hidden exactly when no record can be
copied: the registry is empty, a pointer is null, or the first record ends
above the user address space. -/
theorem hidesTmp_iff (env : Environment) (machine : Machine) (buffer : Nat) (maxEntries : SizeT)
    (returned : Nat) (room : 1 ≤ maxEntries.toNat) :
    HidesTmp env machine buffer maxEntries returned ↔
      machine.heads .shared = [] ∨ buffer = 0 ∨ returned = 0 ∨
        ¬ env.AccessOk buffer sizeofMemoryLimitation := by
  constructor
  · intro hides
    by_contra copied
    obtain ⟨nonempty, copied⟩ := not_or.mp copied
    obtain ⟨nonnullBuffer, copied⟩ := not_or.mp copied
    obtain ⟨nonnullReturned, access⟩ := not_or.mp copied
    obtain ⟨entry, rest, shared⟩ := List.exists_cons_of_ne_nil nonempty
    rw [not_not] at access
    have accepted : Accepted buffer maxEntries returned := ⟨room, nonnullBuffer, nonnullReturned⟩
    have same := congrFun (hides (onlyFirstRecord buffer) (fun _ => 0) (fun _ => 0) (fun _ => 1))
      (buffer + 4)
    rw [userAfter_discloses accepted _ _ shared access,
      userAfter_discloses accepted _ _ shared access] at same
    exact absurd same (by decide)
  · intro condition fault user left right
    by_cases accepted : Accepted buffer maxEntries returned
    · by_cases empty : machine.heads .shared = []
      · rw [userAfter_of_empty env machine fault user left accepted empty,
          userAfter_of_empty env machine fault user right accepted empty]
      · rcases condition with isEmpty | nullBuffer | nullReturned | refused
        · exact absurd isEmpty empty
        · exact absurd nullBuffer accepted.buffer
        · exact absurd nullReturned accepted.returned
        · rw [userAfter_of_record_refused env machine fault user left accepted empty refused,
            userAfter_of_record_refused env machine fault user right accepted empty refused]
    · rw [userAfter_of_refused env machine fault user left accepted,
        userAfter_of_refused env machine fault user right accepted]

theorem hidesTmp_at_boot :
    1 ≤ (1 : SizeT).toNat ∧ HidesTmp (.quiet 7) (.boot fun _ => 0) 4096 1 8192 :=
  ⟨by decide, (hidesTmp_iff (.quiet 7) (.boot fun _ => 0) 4096 1 8192 (by decide)).mpr
    (Or.inl rfl)⟩

/-- With one entry and nothing failing, two stack contents give two user
memories. -/
theorem getMemoryLimits_discloses_padding :
    let machine := afterCalls (.boot fun _ => 0) [.add (.quiet 7) 7 8192]
    let memory := userAfter (.quiet 7) machine 4096 1 8192 (fun _ _ => none) (fun _ => 0)
    memory (fun _ => 0) 4100 = 0 ∧ memory (fun _ => 0x5a) 4100 = 0x5a := by
  decide

end UsacSyscalls.Project3
