import Mathlib.Algebra.Order.Field.Basic
import Mathlib.Algebra.Order.BigOperators.Group.List
import Mathlib.Algebra.Order.Group.PosPart
import Mathlib.Algebra.BigOperators.Ring.List
import Mathlib.Tactic.FieldSimp
import Mathlib.Tactic.GCongr
import Mathlib.Tactic.Linarith

namespace Library

/-! How far a list of numbers rises and falls from entry to entry, and which
share of the movement is upward. -/

section Changes

variable {K : Type*} [Field K]

def changes : List K → List K
  | previous :: entry :: rest => (entry - previous) :: changes (entry :: rest)
  | _ => []

theorem changes_map_add (shift : K) (entries : List K) :
    changes (entries.map (· + shift)) = changes entries := by
  induction entries with
  | nil => rfl
  | cons previous rest induction =>
      cases rest with
      | nil => rfl
      | cons entry rest =>
          simp only [List.map_cons, changes] at induction ⊢
          rw [induction, add_sub_add_right_eq_sub]

theorem changes_map_mul (factor : K) (entries : List K) :
    changes (entries.map (factor * ·)) =
      (changes entries).map (factor * ·) := by
  induction entries with
  | nil => rfl
  | cons previous rest induction =>
      cases rest with
      | nil => rfl
      | cons entry rest =>
          simp only [List.map_cons, changes] at induction ⊢
          rw [induction, mul_sub]

theorem length_changes (entries : List K) :
    (changes entries).length = entries.length - 1 := by
  induction entries with
  | nil => rfl
  | cons previous rest induction =>
      cases rest with
      | nil => rfl
      | cons entry rest =>
          rw [changes, List.length_cons, induction]
          rfl

theorem sum_changes_map_mul {part : K → K} {factor : K}
    (scaled : ∀ change, part (factor * change) = factor * part change)
    (entries : List K) :
    ((changes (entries.map (factor * ·))).map part).sum =
      factor * ((changes entries).map part).sum := by
  rw [changes_map_mul, List.map_map, ← List.sum_map_mul_left]
  exact congrArg List.sum (List.map_congr_left fun change _ => scaled change)

end Changes

section Ordered

variable {K : Type*} [Field K] [LinearOrder K]

/-- The sum of the positive changes. -/
def rise (entries : List K) : K :=
  ((changes entries).map (·⁺)).sum

/-- The sum of the negative changes' sizes. -/
def fall (entries : List K) : K :=
  ((changes entries).map (·⁻)).sum

/-- What does not move at all counts as rising. -/
def upwardShare (up down : K) : K :=
  if down = 0 then 1 else up / (up + down)

theorem rise_cons_cons (previous entry : K) (rest : List K) :
    rise (previous :: entry :: rest) =
      (entry - previous)⁺ + rise (entry :: rest) :=
  List.sum_cons

theorem fall_cons_cons (previous entry : K) (rest : List K) :
    fall (previous :: entry :: rest) =
      (entry - previous)⁻ + fall (entry :: rest) :=
  List.sum_cons

theorem rise_map_add (shift : K) (entries : List K) :
    rise (entries.map (· + shift)) = rise entries := by
  rw [rise, changes_map_add, rise]

theorem fall_map_add (shift : K) (entries : List K) :
    fall (entries.map (· + shift)) = fall entries := by
  rw [fall, changes_map_add, fall]

variable [IsStrictOrderedRing K]

/-- Entries of a bounded size change by at most twice the bound. -/
theorem abs_le_of_mem_changes {bound : K} {entries : List K}
    (small : ∀ entry ∈ entries, |entry| ≤ bound) :
    ∀ change ∈ changes entries, |change| ≤ bound + bound := by
  induction entries with
  | nil => exact fun change member => absurd member List.not_mem_nil
  | cons previous rest induction =>
      cases rest with
      | nil => exact fun change member => absurd member List.not_mem_nil
      | cons entry rest =>
          obtain ⟨first, others⟩ := List.forall_mem_cons.mp small
          rw [changes, List.forall_mem_cons]
          refine ⟨?_, induction others⟩
          exact (abs_sub entry previous).trans
            (add_le_add (others entry List.mem_cons_self) first)

theorem sum_changes_nonneg {part : K → K} (nonneg : ∀ change, 0 ≤ part change)
    (entries : List K) : 0 ≤ ((changes entries).map part).sum := by
  apply List.sum_nonneg
  intro size member
  obtain ⟨change, _, rfl⟩ := List.mem_map.mp member
  exact nonneg change

/-- The last entry only enters the last change. -/
theorem sum_changes_concat_le {part : K → K} {last other : K}
    (below : ∀ previous, part (last - previous) ≤ part (other - previous))
    (older : List K) :
    ((changes (older ++ [last])).map part).sum ≤
      ((changes (older ++ [other])).map part).sum := by
  induction older with
  | nil => exact le_rfl
  | cons previous rest induction =>
      cases rest with
      | nil => simpa [changes] using below previous
      | cons entry rest =>
          simp only [List.cons_append, changes, List.map_cons,
            List.sum_cons] at induction ⊢
          gcongr

theorem rise_nonneg (entries : List K) : 0 ≤ rise entries :=
  sum_changes_nonneg posPart_nonneg entries

theorem fall_nonneg (entries : List K) : 0 ≤ fall entries :=
  sum_changes_nonneg negPart_nonneg entries

theorem rise_map_mul {factor : K} (nonneg : 0 ≤ factor) (entries : List K) :
    rise (entries.map (factor * ·)) = factor * rise entries := by
  apply sum_changes_map_mul
  intro change
  rw [posPart_def, posPart_def, mul_max_of_nonneg _ _ nonneg, mul_zero]

theorem fall_map_mul {factor : K} (nonneg : 0 ≤ factor) (entries : List K) :
    fall (entries.map (factor * ·)) = factor * fall entries := by
  apply sum_changes_map_mul
  intro change
  rw [negPart_def, negPart_def, mul_max_of_nonneg _ _ nonneg, mul_zero,
    mul_neg]

/-- A larger last entry only adds to the rise. -/
theorem rise_concat_mono (older : List K) {last larger : K}
    (above : last ≤ larger) :
    rise (older ++ [last]) ≤ rise (older ++ [larger]) :=
  sum_changes_concat_le
    (fun previous => posPart_mono (sub_le_sub_right above previous)) older

/-- A larger last entry only takes from the fall. -/
theorem fall_concat_anti (older : List K) {last larger : K}
    (above : last ≤ larger) :
    fall (older ++ [larger]) ≤ fall (older ++ [last]) :=
  sum_changes_concat_le
    (fun previous => negPart_anti (sub_le_sub_right above previous)) older

variable {up down : K}

theorem upwardShare_nonneg (upward : 0 ≤ up) (downward : 0 ≤ down) :
    0 ≤ upwardShare up down := by
  unfold upwardShare
  split
  next => exact zero_le_one
  next => exact div_nonneg upward (add_nonneg upward downward)

theorem upwardShare_le_one (upward : 0 ≤ up) (downward : 0 ≤ down) :
    upwardShare up down ≤ 1 := by
  unfold upwardShare
  split
  next => exact le_rfl
  next =>
      exact div_le_one_of_le₀ (le_add_of_nonneg_right downward)
        (add_nonneg upward downward)

theorem upwardShare_mul {factor : K} (positive : 0 < factor) :
    upwardShare (factor * up) (factor * down) = upwardShare up down := by
  unfold upwardShare
  rw [← mul_add, mul_div_mul_left _ _ positive.ne']
  simp only [mul_eq_zero, positive.ne', false_or]

/-- More rise and less fall never lower the share. -/
theorem upwardShare_mono {higher lower : K} (upward : 0 ≤ up)
    (more : up ≤ higher) (less : lower ≤ down) (downward : 0 ≤ lower) :
    upwardShare up down ≤ upwardShare higher lower := by
  rcases downward.eq_or_lt with rfl | falls
  · rw [upwardShare.eq_def higher, if_pos rfl]
    exact upwardShare_le_one upward less
  · have fallsBefore : 0 < down := falls.trans_le less
    rw [upwardShare, if_neg fallsBefore.ne', upwardShare, if_neg falls.ne',
      div_le_div_iff₀ (by linarith) (by linarith)]
    have crossed : up * lower ≤ higher * down :=
      mul_le_mul more less downward (upward.trans more)
    linarith

end Ordered

end Library
