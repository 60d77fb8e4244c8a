import Mathlib.Data.List.TakeWhile

/-!
Contract: decimal numbers in text.

Owns the digits of natural numbers and integers as characters, where a number
ends in a longer text, the number read back from its digits, and the rules that
a text which starts with a number, or with a line that contains one, determines
the number and what follows.

Does not own the text of any line.
-/

set_option autoImplicit false

namespace UsacSyscalls.Foundation

/-- The decimal digits, most significant first. -/
def decimal (value : Nat) : List Char := Nat.toDigits 10 value

/-- A minus sign where needed, and the digits. -/
def signed (value : Int) : List Char :=
  if value < 0 then '-' :: decimal value.natAbs else decimal value.natAbs

/-- What can follow a number without becoming part of it. -/
def Stops (rest : List Char) : Prop := ∀ next ∈ rest.head?, next.isDigit = false

theorem stops_nil : Stops [] := by
  intro next absent
  cases absent

theorem stops_cons {next : Char} (other : next.isDigit = false) (rest : List Char) :
    Stops (next :: rest) := by
  intro first member
  cases member
  exact other

theorem stops_append {text : List Char} {first : Char} (starts : text.head? = some first)
    (other : first.isDigit = false) (rest : List Char) : Stops (text ++ rest) := by
  cases text with
  | nil => cases starts
  | cons next later =>
      cases starts
      exact stops_cons other _

theorem isDigit_of_mem_decimal {value : Nat} {digit : Char} (member : digit ∈ decimal value) :
    digit.isDigit = true :=
  Nat.isDigit_of_mem_toDigits (by decide) (by decide) member

theorem ofDigitChars_decimal (value : Nat) : Nat.ofDigitChars 10 (decimal value) 0 = value :=
  Nat.ofDigitChars_ten_toDigits

theorem decimal_ne_nil (value : Nat) : decimal value ≠ [] := Nat.toDigits_ne_nil

/-- The leading digits of a text that starts with a number are its digits. -/
theorem takeWhile_decimal (value : Nat) {rest : List Char} (stops : Stops rest) :
    (decimal value ++ rest).takeWhile Char.isDigit = decimal value := by
  have none : rest.takeWhile Char.isDigit = [] := by
    cases rest with
    | nil => rfl
    | cons next rest =>
        apply List.takeWhile_cons_of_neg
        simp [stops next rfl]
  rw [List.takeWhile_append_of_pos fun _ => isDigit_of_mem_decimal, none, List.append_nil]

theorem decimal_append_inj {left right : Nat} {rest other : List Char} (stops : Stops rest)
    (otherStops : Stops other) (same : decimal left ++ rest = decimal right ++ other) :
    left = right ∧ rest = other := by
  have digits : decimal left = decimal right := by
    rw [← takeWhile_decimal left stops, same, takeWhile_decimal right otherStops]
  have number : left = right := by
    rw [← ofDigitChars_decimal left, digits, ofDigitChars_decimal]
  rw [digits] at same
  exact ⟨number, List.append_cancel_left same⟩

/-- No number starts with a minus sign. -/
theorem decimal_append_ne_minus (value : Nat) (rest other : List Char) :
    decimal value ++ rest ≠ '-' :: other := by
  intro same
  cases digits : decimal value with
  | nil => exact decimal_ne_nil value digits
  | cons first later =>
      rw [digits] at same
      have minus : first = '-' := (List.cons.inj same).1
      have digit : first.isDigit = true := by
        apply isDigit_of_mem_decimal
        rw [digits]
        exact List.mem_cons_self
      rw [minus] at digit
      exact absurd digit (by decide)

theorem signed_append_inj {left right : Int} {rest other : List Char} (stops : Stops rest)
    (otherStops : Stops other) (same : signed left ++ rest = signed right ++ other) :
    left = right ∧ rest = other := by
  unfold signed at same
  split at same
  · split at same
    · obtain ⟨magnitude, tail⟩ := decimal_append_inj stops otherStops (List.cons.inj same).2
      exact ⟨by omega, tail⟩
    · exact absurd same.symm (decimal_append_ne_minus _ _ _)
  · split at same
    · exact absurd same (decimal_append_ne_minus _ _ _)
    · obtain ⟨magnitude, tail⟩ := decimal_append_inj stops otherStops same
      exact ⟨by omega, tail⟩

/-! ### Lines with one number -/

section Lines

variable {constant rest other : List Char}

/-- A line whose text depends on a number determines the number, and what
follows the line. -/
theorem decimal_line_inj {left right : Nat} {tail : Nat → List Char}
    (stops : ∀ value rest, Stops (tail value ++ rest))
    (same : (constant ++ (decimal left ++ tail left)) ++ rest =
      (constant ++ (decimal right ++ tail right)) ++ other) :
    left = right ∧ rest = other := by
  have numbers : decimal left ++ (tail left ++ rest) = decimal right ++ (tail right ++ other) := by
    simp only [List.append_assoc] at same
    exact List.append_cancel_left same
  obtain ⟨rfl, -⟩ := decimal_append_inj (stops left rest) (stops right other) numbers
  exact ⟨rfl, List.append_cancel_left same⟩

theorem signed_line_inj {left right : Int} {tail : List Char}
    (stops : ∀ rest, Stops (tail ++ rest))
    (same : (constant ++ (signed left ++ tail)) ++ rest =
      (constant ++ (signed right ++ tail)) ++ other) :
    left = right ∧ rest = other := by
  have numbers : signed left ++ (tail ++ rest) = signed right ++ (tail ++ other) := by
    simp only [List.append_assoc] at same
    exact List.append_cancel_left same
  obtain ⟨rfl, -⟩ := signed_append_inj (stops rest) (stops other) numbers
  exact ⟨rfl, List.append_cancel_left same⟩

end Lines

end UsacSyscalls.Foundation
