import Mathlib.Algebra.BigOperators.Group.List.Basic
import Mathlib.Algebra.Order.Group.Defs
import Mathlib.Data.List.Induction
import Mathlib.Data.List.Infix
import Mathlib.Order.Bounds.Basic

namespace Library

/-! A walk that is pushed back up to a floor after every step. -/

variable {α : Type*} [AddCommGroup α] [LinearOrder α] [IsOrderedAddMonoid α]

def reflected (floor start : α) (steps : List α) : α :=
  steps.foldl (fun position step => max (position + step) floor) start

/-- Where the walk could be: on its free path, or where a free path would be
that had left the floor some steps ago. -/
def freePaths (floor start : α) (steps : List α) : Set α :=
  {position | position = start + steps.sum ∨
    ∃ later, later <:+ steps ∧ later ≠ steps ∧ position = floor + later.sum}

variable {floor start : α}

omit [IsOrderedAddMonoid α] in
theorem reflected_concat (steps : List α) (step : α) :
    reflected floor start (steps ++ [step]) =
      max (reflected floor start steps + step) floor :=
  List.foldl_concat _ _ _ _

omit [LinearOrder α] [IsOrderedAddMonoid α] in
/-- A step shifts every free path, and the floor begins a new one. -/
theorem mem_freePaths_concat {steps : List α} {step position : α} :
    position ∈ freePaths floor start (steps ++ [step]) ↔
      position = floor ∨
        ∃ earlier ∈ freePaths floor start steps, position = earlier + step := by
  constructor
  · intro member
    rcases member with free | ⟨later, suffix, shorter, rfl⟩
    · refine .inr ⟨start + steps.sum, .inl rfl, ?_⟩
      rw [free, List.sum_append, List.sum_singleton, add_assoc]
    · rcases List.suffix_concat_iff.mp suffix with rfl | ⟨earlier, rfl, tail⟩
      · exact .inl (by simp)
      · refine .inr ⟨floor + earlier.sum, .inr ⟨earlier, tail, ?_, rfl⟩, ?_⟩
        · rintro rfl
          exact shorter rfl
        · rw [List.sum_append, List.sum_singleton, add_assoc]
  · intro member
    rcases member with rfl | ⟨earlier, free | ⟨later, suffix, shorter, rfl⟩, rfl⟩
    · exact .inr ⟨[], List.nil_suffix, by simp, by simp⟩
    · refine .inl ?_
      rw [free, List.sum_append, List.sum_singleton, add_assoc]
    · refine .inr ⟨later ++ [step], ?_, ?_, ?_⟩
      · exact List.suffix_concat_iff.mpr (.inr ⟨later, rfl, suffix⟩)
      · simpa using shorter
      · rw [List.sum_append, List.sum_singleton, add_assoc]

/-- The walk is at the greatest of its free paths. -/
theorem reflected_isGreatest (floor start : α) (steps : List α) :
    IsGreatest (freePaths floor start steps) (reflected floor start steps) := by
  induction steps using List.reverseRecOn with
  | nil =>
      refine ⟨.inl (by simp [reflected]), ?_⟩
      intro position member
      rcases member with free | ⟨later, suffix, shorter, _⟩
      · simp [free, reflected]
      · exact absurd (List.suffix_nil.mp suffix) shorter
  | append_singleton steps step induction =>
      obtain ⟨member, upper⟩ := induction
      rw [reflected_concat]
      constructor
      · rw [mem_freePaths_concat]
        rcases max_choice (reflected floor start steps + step) floor with
          moved | pushed
        · exact .inr ⟨_, member, moved⟩
        · exact .inl pushed
      · intro position free
        rcases mem_freePaths_concat.mp free with rfl | ⟨earlier, path, rfl⟩
        · exact le_max_right _ _
        · exact (add_le_add_left (upper path) step).trans (le_max_left _ _)

end Library
