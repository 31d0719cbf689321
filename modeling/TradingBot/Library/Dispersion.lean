import TradingBot.Library.Statistics
import TradingBot.Library.Variation

namespace Library

/-! How far a list of numbers spreads whose entries change by a bounded size:
of all such lists the straight one has the largest variance. -/

section Changes

variable {K : Type*} [Field K] {property : K → Prop}

theorem forall_changes_tail {first : K} {rest : List K}
    (each : ∀ change ∈ changes (first :: rest), property change) :
    ∀ change ∈ changes rest, property change := by
  cases rest with
  | nil => exact each
  | cons entry rest => exact fun change member => each change (.tail _ member)

theorem forall_changes_drop {entries : List K}
    (each : ∀ change ∈ changes entries, property change) (count : Nat) :
    ∀ change ∈ changes (entries.drop count), property change := by
  induction count generalizing entries with
  | zero => exact each
  | succ count induction =>
      cases entries with
      | nil => exact each
      | cons first rest => exact induction (forall_changes_tail each)

end Changes

section Field

variable {K : Type*} [Field K]

/-- Six times the sum of the first squares. -/
def sixSquares (count : Nat) : K :=
  count * (count + 1) * (2 * count + 1)

theorem sixSquares_succ (count : Nat) :
    (sixSquares (count + 1) : K) =
      sixSquares count + 6 * ((count : K) + 1) ^ 2 := by
  rw [sixSquares, sixSquares]
  push_cast
  ring

theorem squaredDeviation_cons (center first : K) (rest : List K) :
    squaredDeviation center (first :: rest) =
      (first - center) ^ 2 + squaredDeviation center rest := by
  rw [squaredDeviation, List.map_cons, List.sum_cons, ← squaredDeviation, sq]

/-- A straight list around a point that lies some steps before it. -/
theorem squaredDeviation_of_steady {center previous size : K} {rest : List K}
    {distance : Nat} (away : previous - center = distance * size)
    (steady : ∀ change ∈ changes (previous :: rest), change = size) :
    6 * squaredDeviation center rest =
      size ^ 2 * (sixSquares (distance + rest.length) - sixSquares distance) := by
  induction rest generalizing previous distance with
  | nil => simp [squaredDeviation]
  | cons entry rest induction =>
      have step : entry - previous = size :=
        steady _ List.mem_cons_self
      have farther : entry - center = ((distance + 1 : Nat) : K) * size := by
        push_cast
        linear_combination step + away
      rw [squaredDeviation_cons, mul_add,
        induction farther (forall_changes_tail steady), farther,
        List.length_cons, ← Nat.add_assoc, Nat.add_right_comm distance 1,
        sixSquares_succ distance]
      push_cast
      ring

variable [CharZero K]

/-- A further entry adds its squared distances to the others. -/
theorem length_sq_mul_variance_cons (first : K) (rest : List K) :
    ((rest.length : K) + 1) ^ 2 * variance (first :: rest) =
      (rest.length : K) ^ 2 * variance rest + squaredDeviation first rest := by
  have whole := length_sq_mul_variance first (first :: rest)
  have part := length_sq_mul_variance first rest
  have deviates : deviation first (first :: rest) = deviation first rest := by
    simp [deviation]
  rw [squaredDeviation_cons, deviates, sub_self, List.length_cons] at whole
  push_cast at whole
  linear_combination whole - part

theorem length_sq_mul_variance_of_steady {entries : List K} {size : K}
    (steady : ∀ change ∈ changes entries, change = size) :
    12 * ((entries.length : K) ^ 2 * variance entries) =
      size ^ 2 * (entries.length : K) ^ 2 * ((entries.length : K) ^ 2 - 1) := by
  induction entries with
  | nil => simp
  | cons first rest induction =>
      have atFirst : first - first = ((0 : Nat) : K) * size := by
        rw [sub_self, Nat.cast_zero, zero_mul]
      have spread := squaredDeviation_of_steady atFirst steady
      have earlier := induction (forall_changes_tail steady)
      rw [sixSquares, sixSquares] at spread
      rw [List.length_cons, Nat.cast_succ, length_sq_mul_variance_cons]
      push_cast at spread
      linear_combination earlier + 2 * spread

theorem variance_of_steady {entries : List K} {size : K}
    (steady : ∀ change ∈ changes entries, change = size) :
    12 * variance entries =
      size ^ 2 * ((entries.length ^ 2 - 1 : Nat) : K) := by
  rcases eq_or_ne entries [] with rfl | nonempty
  · simp [variance]
  · have counted : 0 < entries.length ^ 2 :=
      pow_pos (List.length_pos_iff.mpr nonempty) 2
    have divisor : (entries.length : K) ^ 2 ≠ 0 := by
      exact_mod_cast counted.ne'
    rw [Nat.cast_pred counted, Nat.cast_pow]
    refine mul_left_cancel₀ divisor ?_
    linear_combination length_sq_mul_variance_of_steady steady

end Field

section Ordered

variable {K : Type*} [Field K] [LinearOrder K] [IsStrictOrderedRing K]
  {size : K}

/-- A list around a point from which it started some steps ago. -/
theorem squaredDeviation_le_of_steps {center previous : K} {rest : List K}
    {distance : Nat} (near : |previous - center| ≤ distance * size)
    (steps : ∀ change ∈ changes (previous :: rest), |change| ≤ size) :
    6 * squaredDeviation center rest ≤
      size ^ 2 * (sixSquares (distance + rest.length) - sixSquares distance) := by
  induction rest generalizing previous distance with
  | nil => simp [squaredDeviation]
  | cons entry rest induction =>
      have step : |entry - previous| ≤ size := steps _ List.mem_cons_self
      have farther : |entry - center| ≤ ((distance + 1 : Nat) : K) * size := by
        have path := abs_sub_le entry previous center
        push_cast
        linarith
      have square : (entry - center) ^ 2 ≤
          (((distance + 1 : Nat) : K) * size) ^ 2 :=
        sq_le_sq' (neg_le_of_abs_le farther) (le_of_abs_le farther)
      have later := induction farther (forall_changes_tail steps)
      rw [squaredDeviation_cons, List.length_cons, ← Nat.add_assoc]
      rw [Nat.add_right_comm distance 1, sixSquares_succ distance] at later
      push_cast at later square
      linarith

theorem variance_nonneg (entries : List K) : 0 ≤ variance entries := by
  refine div_nonneg (List.sum_nonneg ?_) (Nat.cast_nonneg _)
  intro square member
  obtain ⟨entry, _, rfl⟩ := List.mem_map.mp member
  exact mul_self_nonneg _

theorem length_sq_mul_variance_le_of_steps {entries : List K}
    (steps : ∀ change ∈ changes entries, |change| ≤ size) :
    12 * ((entries.length : K) ^ 2 * variance entries) ≤
      size ^ 2 * (entries.length : K) ^ 2 * ((entries.length : K) ^ 2 - 1) := by
  induction entries with
  | nil => simp
  | cons first rest induction =>
      have atFirst : |first - first| ≤ ((0 : Nat) : K) * size := by
        rw [sub_self, abs_zero, Nat.cast_zero, zero_mul]
      have spread := squaredDeviation_le_of_steps atFirst steps
      have earlier := induction (forall_changes_tail steps)
      rw [sixSquares, sixSquares] at spread
      rw [List.length_cons, Nat.cast_succ, length_sq_mul_variance_cons]
      push_cast at spread
      linarith

/-- Of all lists with changes of a size the straight one spreads most. -/
theorem variance_le_of_steps {entries : List K}
    (steps : ∀ change ∈ changes entries, |change| ≤ size) :
    12 * variance entries ≤
      size ^ 2 * ((entries.length ^ 2 - 1 : Nat) : K) := by
  rcases eq_or_ne entries [] with rfl | nonempty
  · simp [variance]
  · have counted : 0 < entries.length ^ 2 :=
      pow_pos (List.length_pos_iff.mpr nonempty) 2
    have divisor : (0 : K) < (entries.length : K) ^ 2 := by
      exact_mod_cast counted
    rw [Nat.cast_pred counted, Nat.cast_pow]
    refine le_of_mul_le_mul_left ?_ divisor
    linarith [length_sq_mul_variance_le_of_steps steps]

/-- The first and the last entry lie at most as many steps apart as there are
changes. -/
theorem abs_getLastD_sub_le {first : K} {rest : List K}
    (steps : ∀ change ∈ changes (first :: rest), |change| ≤ size) :
    |rest.getLastD first - first| ≤ rest.length * size := by
  induction rest generalizing first with
  | nil => simp
  | cons entry rest induction =>
      have step : |entry - first| ≤ size := steps _ List.mem_cons_self
      have later := induction (forall_changes_tail steps)
      have path := abs_sub_le (rest.getLastD entry) entry first
      rw [List.getLastD_cons, List.length_cons]
      push_cast
      linarith

end Ordered

end Library
