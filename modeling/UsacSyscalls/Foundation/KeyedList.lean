import Mathlib.Data.List.Basic

/-!
Contract: lists whose elements carry a key, and edits that concern one key.

Owns the part of a list under one key, edits whose output and effect depend on
the part under their own key and leave every other part alone, and the rule
that two such edits for different keys commute up to the order of the list.

Does not own any concrete element, key or edit.
-/

set_option autoImplicit false

namespace UsacSyscalls.Foundation

namespace KeyedList

variable {α κ ω : Type} [DecidableEq κ] (key : α → κ)

/-- The elements under one key, in their order. -/
def part (wanted : κ) (elements : List α) : List α :=
  elements.filter fun element => decide (key element = wanted)

@[simp] theorem part_nil (wanted : κ) : part key wanted [] = [] := rfl

theorem part_cons_self {wanted : κ} {element : α} (same : key element = wanted)
    (rest : List α) : part key wanted (element :: rest) = element :: part key wanted rest :=
  List.filter_cons_of_pos (decide_eq_true same)

theorem part_cons_of_ne {wanted : κ} {element : α} (different : key element ≠ wanted)
    (rest : List α) : part key wanted (element :: rest) = part key wanted rest :=
  List.filter_cons_of_neg (by simpa using different)

@[simp] theorem part_append (wanted : κ) (left right : List α) :
    part key wanted (left ++ right) = part key wanted left ++ part key wanted right :=
  List.filter_append ..

/-- Lists with the same parts differ only in how the parts are interleaved. -/
theorem perm_of_parts [DecidableEq α] {left right : List α}
    (same : ∀ wanted, part key wanted left = part key wanted right) : left.Perm right := by
  rw [List.perm_iff_count]
  intro element
  have countPart : ∀ elements : List α,
      (part key (key element) elements).count element = elements.count element := by
    intro elements
    exact List.count_filter (decide_eq_true rfl)
  rw [← countPart left, same, countPart right]

/-- An edit that sees and changes the part under one key only. -/
structure LocalEdit (own : κ) (edit : List α → ω × List α) : Prop where
  output : ∀ {left right : List α}, part key own left = part key own right →
    (edit left).1 = (edit right).1
  inside : ∀ {left right : List α}, part key own left = part key own right →
    part key own (edit left).2 = part key own (edit right).2
  outside : ∀ (elements : List α) {other : κ}, other ≠ own →
    part key other (edit elements).2 = part key other elements

theorem LocalEdit.unchanged (own : κ) (output : ω) :
    LocalEdit key own fun elements : List α => (output, elements) where
  output := fun _ => rfl
  inside := id
  outside := fun _ _ _ => rfl

/-- A choice between two local edits that does not look at the list. -/
theorem LocalEdit.ite {own : κ} (condition : Prop) [Decidable condition]
    {yes no : List α → ω × List α} (yesLocal : LocalEdit key own yes)
    (noLocal : LocalEdit key own no) :
    LocalEdit key own fun elements => if condition then yes elements else no elements := by
  by_cases holds : condition
  · simpa only [if_pos holds] using yesLocal
  · simpa only [if_neg holds] using noLocal

variable {key} {first second : κ} {firstEdit secondEdit : List α → ω × List α}

/-- The output of an edit does not depend on an earlier edit under another
key. -/
theorem LocalEdit.output_after (firstLocal : LocalEdit key first firstEdit)
    (secondLocal : LocalEdit key second secondEdit) (different : first ≠ second)
    (elements : List α) : (secondEdit (firstEdit elements).2).1 = (secondEdit elements).1 :=
  secondLocal.output (firstLocal.outside elements different.symm)

theorem LocalEdit.perm_after [DecidableEq α] (firstLocal : LocalEdit key first firstEdit)
    (secondLocal : LocalEdit key second secondEdit) (different : first ≠ second)
    (elements : List α) :
    (secondEdit (firstEdit elements).2).2.Perm (firstEdit (secondEdit elements).2).2 := by
  apply perm_of_parts key
  intro wanted
  by_cases isFirst : wanted = first
  · subst isFirst
    rw [secondLocal.outside _ different]
    exact firstLocal.inside (secondLocal.outside elements different).symm
  · rw [firstLocal.outside _ isFirst]
    by_cases isSecond : wanted = second
    · subst isSecond
      exact secondLocal.inside (firstLocal.outside elements isFirst)
    · rw [secondLocal.outside _ isSecond, firstLocal.outside _ isFirst,
        secondLocal.outside _ isSecond]

end KeyedList

end UsacSyscalls.Foundation
