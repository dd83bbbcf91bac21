import PocketCalc.Keystroke
import Mathlib.Data.List.Infix

/-! Lists cut into pieces at separators: an input at its newlines, and an expression at its
arithmetic characters. A piece has no separator and stands in the list as it is. -/

namespace PocketCalc

variable {α : Type}

/-- A list without separators, or one cut at the first of them. -/
theorem none_or_exists_first (separates : α → Bool) (items : List α) :
    (∀ item ∈ items, separates item = false) ∨ ∃ before separator after,
      items = before ++ separator :: after ∧ (∀ item ∈ before, separates item = false) ∧
        separates separator = true := by
  cases found : items.find? separates with
  | none =>
    left
    intro item member
    exact Bool.eq_false_iff.mpr (List.find?_eq_none.mp found item member)
  | some separator =>
    right
    obtain ⟨separated, before, after, same, none⟩ := List.find?_eq_some_iff_append.mp found
    refine ⟨before, separator, after, same, fun item member => ?_, separated⟩
    simpa using none item member

theorem mem_splitOnP {separates : α → Bool} {items piece : List α}
    (member : piece ∈ items.splitOnP separates) :
    piece <:+: items ∧ ∀ item ∈ piece, separates item = false := by
  rcases none_or_exists_first separates items with
    none | ⟨before, separator, after, same, none, separated⟩
  · rw [List.splitOnP_eq_singleton none, List.mem_singleton] at member
    subst member
    exact ⟨List.infix_rfl, none⟩
  · rw [same, List.splitOnP_append_cons_of_forall_mem none separator separated] at member
    rcases List.mem_cons.mp member with rfl | later
    · exact ⟨⟨[], separator :: after, same.symm⟩, none⟩
    · have shorter : after.length < items.length := by
        rw [same, List.length_append, List.length_cons]
        omega
      obtain ⟨within, none⟩ := mem_splitOnP later
      refine ⟨within.trans ?_, none⟩
      exact ⟨before ++ [separator], [], by simp [same]⟩
termination_by items.length
decreasing_by exact shorter

end PocketCalc
