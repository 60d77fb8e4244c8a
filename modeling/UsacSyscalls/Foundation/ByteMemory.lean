import Mathlib.Data.BitVec
import Mathlib.Data.List.Basic
import Mathlib.Data.List.GetD

/-!
Contract: byte-addressed memory and little-endian integers.

Owns stores and loads of byte strings, the rules that say which bytes a store
leaves alone, and the fixed-width little-endian encoding with its round trip.

Does not own any record layout, address-space limit or access check.
-/

set_option autoImplicit false

namespace UsacSyscalls.Foundation

abbrev Byte := BitVec 8

/-- Memory as a map from addresses to bytes. -/
abbrev ByteMemory := Nat → Byte

namespace ByteMemory

/-- Write a byte string at `base`. -/
def store (memory : ByteMemory) (base : Nat) (bytes : List Byte) : ByteMemory :=
  fun address =>
    if base ≤ address ∧ address < base + bytes.length then
      bytes.getD (address - base) 0
    else memory address

/-- The byte string of `count` bytes at `base`. -/
def load (memory : ByteMemory) (base : Nat) : Nat → List Byte
  | 0 => []
  | count + 1 => memory base :: load memory (base + 1) count

variable (memory : ByteMemory)

@[simp] theorem load_length (base count : Nat) : (load memory base count).length = count := by
  induction count generalizing base with
  | zero => rfl
  | succ count inductionHypothesis => simp [load, inductionHypothesis]

theorem load_add (base first second : Nat) :
    load memory base (first + second) =
      load memory base first ++ load memory (base + first) second := by
  induction first generalizing base with
  | zero => simp [load]
  | succ first inductionHypothesis =>
      rw [Nat.succ_add]
      simp only [load, List.cons_append]
      rw [inductionHypothesis, Nat.add_right_comm base 1 first]
      rfl

theorem load_congr {left right : ByteMemory} {base count : Nat}
    (agree : ∀ address, base ≤ address → address < base + count →
      left address = right address) :
    load left base count = load right base count := by
  induction count generalizing base with
  | zero => rfl
  | succ count inductionHypothesis =>
      simp only [load]
      rw [agree base (by omega) (by omega), inductionHypothesis]
      intro address lower upper
      exact agree address (by omega) (by omega)

/-! ### What a store writes and what it leaves alone -/

theorem store_outside {base address : Nat} {bytes : List Byte}
    (outside : address < base ∨ base + bytes.length ≤ address) :
    store memory base bytes address = memory address := by
  unfold store
  rw [if_neg (by omega)]

theorem store_inside {base offset : Nat} {bytes : List Byte} (inside : offset < bytes.length) :
    store memory base bytes (base + offset) = bytes.getD offset 0 := by
  unfold store
  rw [if_pos (by omega), Nat.add_sub_cancel_left]

theorem store_singleton_self (address : Nat) (byte : Byte) :
    store memory address [byte] address = byte := by
  simp [store]

theorem store_singleton_other {address other : Nat} (apart : other ≠ address) (byte : Byte) :
    store memory address [byte] other = memory other := by
  apply store_outside
  rw [List.length_singleton]
  omega

theorem load_getElem (base count offset : Nat) (inLoad : offset < (load memory base count).length) :
    (load memory base count)[offset] = memory (base + offset) := by
  induction count generalizing base offset with
  | zero => simp [load] at inLoad
  | succ count inductionHypothesis =>
      cases offset with
      | zero => rfl
      | succ offset =>
          simp only [load, List.getElem_cons_succ]
          rw [inductionHypothesis, Nat.add_right_comm, Nat.add_assoc]

theorem load_store_self (base : Nat) (bytes : List Byte) :
    load (store memory base bytes) base bytes.length = bytes := by
  apply List.ext_getElem (by simp)
  intro offset inLoad inBytes
  rw [load_getElem, store_inside memory inBytes, List.getD_eq_getElem?_getD,
    List.getElem?_eq_getElem inBytes, Option.getD_some]

/-- A load that does not meet the stored range sees the old bytes. -/
theorem load_store_disjoint {base start count : Nat} {bytes : List Byte}
    (disjoint : start + count ≤ base ∨ base + bytes.length ≤ start) :
    load (store memory base bytes) start count = load memory start count := by
  apply load_congr
  intro address lower upper
  exact store_outside memory (by omega)

/-- Stores in ascending order append to the loaded string. -/
theorem load_store_append (base count : Nat) (bytes : List Byte) :
    load (store memory (base + count) bytes) base (count + bytes.length) =
      load memory base count ++ bytes := by
  rw [load_add, load_store_disjoint memory (Or.inl (Nat.le_refl _)), load_store_self]

@[simp] theorem store_nil (base : Nat) : store memory base [] = memory := by
  funext address
  exact store_outside memory (by simp; omega)

/-- Two stores side by side are one store of both strings. -/
theorem store_store_append (base : Nat) (first second : List Byte) :
    store (store memory base first) (base + first.length) second =
      store memory base (first ++ second) := by
  funext address
  by_cases before : address < base
  · rw [store_outside _ (Or.inl (by omega)), store_outside _ (Or.inl before),
      store_outside _ (Or.inl before)]
  · obtain ⟨offset, rfl⟩ : ∃ offset, address = base + offset := ⟨address - base, by omega⟩
    by_cases inFirst : offset < first.length
    · rw [store_outside _ (Or.inl (by omega)), store_inside _ inFirst,
        store_inside _ (by simp; omega), List.getD_append _ _ _ _ inFirst]
    · by_cases inSecond : offset < first.length + second.length
      · obtain ⟨rest, rfl⟩ : ∃ rest, offset = first.length + rest :=
          ⟨offset - first.length, by omega⟩
        rw [← Nat.add_assoc, store_inside _ (by omega), Nat.add_assoc,
          store_inside _ (by simp; omega), List.getD_append_right _ _ _ _ (by omega),
          Nat.add_sub_cancel_left]
      · rw [store_outside _ (Or.inr (by omega)), store_outside _ (Or.inr (by omega)),
          store_outside _ (Or.inr (by simp; omega))]

/-- What stands in the middle of a stored string is loaded from its place. -/
theorem load_store_middle (base : Nat) (before middle after : List Byte) :
    load (store memory base (before ++ (middle ++ after))) (base + before.length)
      middle.length = middle := by
  rw [← store_store_append, ← store_store_append, load_store_disjoint _ (Or.inl (by omega)),
    load_store_self]

end ByteMemory

/-! ### Little-endian integers -/

/-- The low `width` bytes of a number, least significant first. -/
def leBytes : Nat → Nat → List Byte
  | 0, _ => []
  | width + 1, value => BitVec.ofNat 8 value :: leBytes width (value / 256)

/-- The number a little-endian byte string stands for. -/
def leValue : List Byte → Nat
  | [] => 0
  | byte :: rest => byte.toNat + 256 * leValue rest

@[simp] theorem leBytes_length (width value : Nat) : (leBytes width value).length = width := by
  induction width generalizing value with
  | zero => rfl
  | succ width inductionHypothesis => simp [leBytes, inductionHypothesis]

theorem leBytes_add (low high value : Nat) :
    leBytes (low + high) value = leBytes low value ++ leBytes high (value / 256 ^ low) := by
  induction low generalizing value with
  | zero => simp [leBytes]
  | succ low inductionHypothesis =>
      rw [Nat.succ_add]
      simp only [leBytes, List.cons_append]
      rw [inductionHypothesis, Nat.div_div_eq_div_mul, Nat.pow_succ']

theorem leValue_leBytes (width value : Nat) :
    leValue (leBytes width value) = value % 256 ^ width := by
  induction width generalizing value with
  | zero => simp [leBytes, leValue, Nat.mod_one]
  | succ width inductionHypothesis =>
      have split : value % (256 * 256 ^ width) =
          value % 256 + 256 * (value / 256 % 256 ^ width) := Nat.mod_mul
      rw [Nat.pow_succ', split, ← inductionHypothesis]
      simp [leBytes, leValue]

/-- The integer of `width` bytes at an address. -/
def ByteMemory.loadLE (memory : ByteMemory) (address width : Nat) : Nat :=
  leValue (memory.load address width)

theorem ByteMemory.loadLE_eq {memory : ByteMemory} {address width value : Nat}
    (stored : memory.load address width = leBytes width value) (small : value < 256 ^ width) :
    memory.loadLE address width = value := by
  unfold ByteMemory.loadLE
  rw [stored, leValue_leBytes, Nat.mod_eq_of_lt small]

end UsacSyscalls.Foundation
