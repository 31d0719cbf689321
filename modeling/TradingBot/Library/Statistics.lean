import Mathlib.Algebra.BigOperators.Ring.List
import Mathlib.Algebra.Order.BigOperators.Group.List
import Mathlib.Tactic.FieldSimp
import Mathlib.Tactic.Linarith
import Mathlib.Tactic.LinearCombination
import Mathlib.Tactic.Ring

namespace Library

/-! Sums of lists of numbers against their extremes, and the variance of a list
against deviations from any one point. -/

section Naturals

variable {entries : List Nat} {bound : Nat}

theorem sum_le_length_mul (upper : ∀ entry ∈ entries, entry ≤ bound) :
    entries.sum ≤ entries.length * bound := by
  simpa using List.sum_le_card_nsmul entries bound upper

theorem length_mul_le_sum (lower : ∀ entry ∈ entries, bound ≤ entry) :
    entries.length * bound ≤ entries.sum := by
  simpa using List.card_nsmul_le_sum entries bound lower

/-- One entry makes up the whole sum only if the others are zero. -/
theorem countP_ne_zero_le_one {entry : Nat} (member : entry ∈ entries)
    (whole : entries.sum ≤ entry) :
    entries.countP (fun other => decide (other ≠ 0)) ≤ 1 := by
  obtain ⟨before, after, rfl⟩ := List.append_of_mem member
  rw [List.sum_append, List.sum_cons] at whole
  have none : ∀ part : List Nat, part.sum = 0 →
      part.countP (fun other => decide (other ≠ 0)) = 0 := by
    intro part zero
    rw [List.countP_eq_zero]
    intro other listed
    simp [List.sum_eq_zero_iff.mp zero other listed]
  rw [List.countP_append, List.countP_cons, none before (by omega),
    none after (by omega)]
  split <;> omega

theorem sum_le_of_countP_le_one (upper : ∀ entry ∈ entries, entry ≤ bound)
    (single : entries.countP (fun other => decide (other ≠ 0)) ≤ 1) :
    entries.sum ≤ bound := by
  induction entries with
  | nil => exact Nat.zero_le _
  | cons entry rest induction =>
      have below := upper entry List.mem_cons_self
      have tail : ∀ other ∈ rest, other ≤ bound := fun other listed =>
        upper other (List.mem_cons_of_mem _ listed)
      rw [List.countP_cons] at single
      rw [List.sum_cons]
      rcases eq_or_ne entry 0 with rfl | positive
      · rw [Nat.zero_add]
        exact induction tail (by omega)
      · have none : rest.countP (fun other => decide (other ≠ 0)) = 0 := by
          simp only [decide_eq_true_eq.mpr positive, if_true] at single
          omega
        have zero : rest.sum = 0 := by
          rw [List.sum_eq_zero_iff]
          intro other listed
          simpa using List.countP_eq_zero.mp none other listed
        omega

end Naturals

section Moments

variable {K : Type*} [Field K]

def mean (entries : List K) : K :=
  entries.sum / entries.length

def deviation (center : K) (entries : List K) : K :=
  (entries.map fun entry => entry - center).sum

def squaredDeviation (center : K) (entries : List K) : K :=
  (entries.map fun entry => (entry - center) * (entry - center)).sum

def variance (entries : List K) : K :=
  squaredDeviation (mean entries) entries / entries.length

variable {center : K} {dropped window : List K}

theorem deviation_append :
    deviation center (dropped ++ window) =
      deviation center dropped + deviation center window := by
  simp [deviation]

theorem squaredDeviation_append :
    squaredDeviation center (dropped ++ window) =
      squaredDeviation center dropped + squaredDeviation center window := by
  simp [squaredDeviation]

theorem deviation_eq_zero (same : ∀ entry ∈ dropped, entry = center) :
    deviation center dropped = 0 := by
  apply List.sum_eq_zero
  simpa [sub_eq_zero] using same

theorem squaredDeviation_eq_zero (same : ∀ entry ∈ dropped, entry = center) :
    squaredDeviation center dropped = 0 := by
  apply List.sum_eq_zero
  simpa [sub_eq_zero] using same

theorem deviation_eq (center : K) (entries : List K) :
    deviation center entries = entries.sum - entries.length * center := by
  induction entries with
  | nil => simp [deviation]
  | cons entry rest induction =>
      rw [deviation, List.map_cons, List.sum_cons, ← deviation, induction,
        List.sum_cons, List.length_cons]
      push_cast
      ring

theorem squaredDeviation_eq (center other : K) (entries : List K) :
    squaredDeviation other entries =
      squaredDeviation center entries -
        2 * (other - center) * deviation center entries +
        entries.length * (other - center) ^ 2 := by
  induction entries with
  | nil => simp [squaredDeviation, deviation]
  | cons entry rest induction =>
      simp only [squaredDeviation, deviation, List.map_cons, List.sum_cons,
        List.length_cons] at induction ⊢
      rw [induction]
      push_cast
      ring

variable [CharZero K]

/-- The variance from the deviations about any point. -/
theorem length_sq_mul_variance (center : K) (entries : List K) :
    (entries.length : K) ^ 2 * variance entries =
      entries.length * squaredDeviation center entries -
        deviation center entries ^ 2 := by
  rcases eq_or_ne entries [] with rfl | nonempty
  · simp [squaredDeviation, deviation]
  · have counted : (entries.length : K) ≠ 0 :=
      Nat.cast_ne_zero.mpr (List.length_pos_iff.mpr nonempty).ne'
    have offset : (entries.length : K) * (mean entries - center) =
        deviation center entries := by
      rw [deviation_eq, mean, mul_sub, mul_div_cancel₀ _ counted]
    rw [variance, squaredDeviation_eq center, ← offset]
    field_simp
    ring

/-- Entries equal to the center change the variance unless the others' squared
deviations stand in one ratio to their deviation. -/
theorem variance_append_eq_iff (same : ∀ entry ∈ dropped, entry = center)
    (evicted : dropped ≠ []) (kept : window ≠ []) :
    variance (dropped ++ window) = variance window ↔
      ((dropped ++ window).length * window.length : K) *
          squaredDeviation center window =
        ((dropped ++ window).length + window.length) *
          deviation center window ^ 2 := by
  have positive : ∀ {entries : List K}, entries ≠ [] →
      (entries.length : K) ≠ 0 := fun nonempty =>
    Nat.cast_ne_zero.mpr (List.length_pos_iff.mpr nonempty).ne'
  have whole := length_sq_mul_variance center (dropped ++ window)
  have part := length_sq_mul_variance center window
  have count : ((dropped ++ window).length : K) =
      dropped.length + window.length := by
    rw [List.length_append, Nat.cast_add]
  rw [deviation_append, squaredDeviation_append, deviation_eq_zero same,
    squaredDeviation_eq_zero same, zero_add, zero_add] at whole
  have dropping := positive evicted
  have keeping := positive kept
  have scaled : (dropped.length : K) *
      (((dropped ++ window).length * window.length : K) *
          squaredDeviation center window -
        ((dropped ++ window).length + window.length) *
          deviation center window ^ 2) =
      (dropped ++ window).length ^ 2 * (window.length : K) ^ 2 *
        (variance window - variance (dropped ++ window)) := by
    rw [count] at whole ⊢
    linear_combination
      (window.length : K) ^ 2 * whole -
        ((dropped.length : K) + window.length) ^ 2 * part
  have counting : ((dropped ++ window).length : K) ≠ 0 :=
    positive (List.append_ne_nil_of_right_ne_nil _ kept)
  rw [eq_comm, ← sub_eq_zero, ← sub_eq_zero (b := _ * _ ^ 2)]
  constructor
  · intro equal
    rw [equal, mul_zero] at scaled
    exact (mul_eq_zero.mp scaled).resolve_left dropping
  · intro equal
    rw [equal, mul_zero] at scaled
    have factor : ((dropped ++ window).length : K) ^ 2 * (window.length : K) ^ 2 ≠ 0 :=
      mul_ne_zero (pow_ne_zero 2 counting) (pow_ne_zero 2 keeping)
    exact (mul_eq_zero.mp scaled.symm).resolve_left factor

end Moments

end Library
