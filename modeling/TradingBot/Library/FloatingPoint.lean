import Mathlib.Data.Int.Log
import Mathlib.Data.Rat.Floor
import Mathlib.Algebra.Order.Ring.Abs
import Mathlib.Algebra.Ring.Int.Parity
import Mathlib.Tactic.Linarith
import Mathlib.Tactic.Positivity
import Mathlib.Tactic.Push

namespace Library

/-! Numbers of a fixed precision: rounding to the nearest one with ties to
even, and arithmetic that overflows to infinity. -/

section Nearest

variable {K : Type*} [Field K] [LinearOrder K] [FloorRing K]

/-- The nearest integer, and of two nearest ones the even one. -/
def nearestEven (x : K) : Int :=
  if Int.fract x < 1 - Int.fract x ∨
      (Int.fract x = 1 - Int.fract x ∧ Even ⌊x⌋) then ⌊x⌋
  else ⌊x⌋ + 1

theorem floor_le_nearestEven (x : K) : ⌊x⌋ ≤ nearestEven x := by
  unfold nearestEven
  split <;> omega

theorem nearestEven_le_floor_add_one (x : K) : nearestEven x ≤ ⌊x⌋ + 1 := by
  unfold nearestEven
  split <;> omega

variable [IsStrictOrderedRing K]

@[simp]
theorem nearestEven_intCast (n : Int) : nearestEven (n : K) = n := by
  rw [nearestEven, Int.fract_intCast, sub_zero, if_pos (.inl one_pos),
    Int.floor_intCast]

theorem nearestEven_mono {x y : K} (below : x ≤ y) :
    nearestEven x ≤ nearestEven y := by
  rcases (Int.floor_mono below).lt_or_eq with apart | same
  · calc nearestEven x ≤ ⌊x⌋ + 1 := nearestEven_le_floor_add_one x
      _ ≤ ⌊y⌋ := apart
      _ ≤ nearestEven y := floor_le_nearestEven y
  · have parts : Int.fract x ≤ Int.fract y := by
      rw [Int.fract, Int.fract, same]
      exact sub_le_sub_right below _
    have others : 1 - Int.fract y ≤ 1 - Int.fract x := sub_le_sub_left parts 1
    unfold nearestEven
    rw [same]
    split
    next => split <;> omega
    next above =>
        have above' : ¬ (Int.fract y < 1 - Int.fract y ∨
            (Int.fract y = 1 - Int.fract y ∧ Even ⌊y⌋)) := by
          rintro (small | ⟨half, even⟩)
          · exact above (.inl ((parts.trans_lt small).trans_le others))
          · rcases ((parts.trans_eq half).trans others).lt_or_eq with
              small | half'
            · exact above (.inl small)
            · exact above (.inr ⟨half', even⟩)
        rw [if_neg above']

theorem nearestEven_le {x : K} {n : Int} (below : x ≤ n) :
    nearestEven x ≤ n := by
  simpa using nearestEven_mono below

theorem le_nearestEven {x : K} {n : Int} (above : (n : K) ≤ x) :
    n ≤ nearestEven x := by
  simpa using nearestEven_mono above

end Nearest

/-- A number has `precision` digits in base `radix`, its last place is worth
at least `radix ^ minExponent`, and its size is below `radix ^ maxExponent`. -/
structure FloatFormat where
  radix : Nat
  precision : Nat
  minExponent : Int
  maxExponent : Int
  wide : 1 < radix
  precise : 0 < precision

namespace FloatFormat

def binary64 : FloatFormat where
  radix := 2
  precision := 53
  minExponent := -1074
  maxExponent := 1024
  wide := by decide
  precise := by decide

variable (F : FloatFormat)

section Rounding

variable {K : Type*} [Field K] [LinearOrder K] [IsStrictOrderedRing K]
  [FloorRing K]

/-- The exponent of the last place of the numbers around `x`. -/
def lastPlace (x : K) : Int :=
  max (Int.log F.radix x + 1 - F.precision) F.minExponent

def roundMagnitude (x : K) : K :=
  nearestEven (x / F.radix ^ F.lastPlace x) * F.radix ^ F.lastPlace x

def round (x : K) : K :=
  if x < 0 then -F.roundMagnitude (-x) else F.roundMagnitude x

variable {F} {x y : K}

theorem one_lt_radix : (1 : K) < F.radix :=
  Nat.one_lt_cast.mpr F.wide

theorem place_pos (e : Int) : (0 : K) < F.radix ^ e :=
  zpow_pos (one_pos.trans one_lt_radix) e

theorem roundMagnitude_le {count : Int}
    (below : x ≤ count * F.radix ^ F.lastPlace x) :
    F.roundMagnitude x ≤ count * F.radix ^ F.lastPlace x := by
  have quotient : x / F.radix ^ F.lastPlace x ≤ count :=
    (div_le_iff₀ (place_pos _)).mpr below
  have counted : (nearestEven (x / F.radix ^ F.lastPlace x) : K) ≤ count :=
    Int.cast_le.mpr (nearestEven_le quotient)
  exact mul_le_mul_of_nonneg_right counted (place_pos _).le

theorem le_roundMagnitude {count : Int}
    (above : count * F.radix ^ F.lastPlace x ≤ x) :
    count * F.radix ^ F.lastPlace x ≤ F.roundMagnitude x := by
  have quotient : (count : K) ≤ x / F.radix ^ F.lastPlace x :=
    (le_div_iff₀ (place_pos _)).mpr above
  have counted : (count : K) ≤ nearestEven (x / F.radix ^ F.lastPlace x) :=
    Int.cast_le.mpr (le_nearestEven quotient)
  exact mul_le_mul_of_nonneg_right counted (place_pos _).le

theorem roundMagnitude_of_count (count : Int)
    (exact : x = count * F.radix ^ F.lastPlace x) : F.roundMagnitude x = x := by
  apply le_antisymm
  · exact (roundMagnitude_le exact.le).trans_eq exact.symm
  · exact exact.le.trans (le_roundMagnitude exact.ge)

@[simp]
theorem roundMagnitude_zero : F.roundMagnitude (0 : K) = 0 :=
  roundMagnitude_of_count 0 (by simp)

theorem roundMagnitude_nonneg (nonneg : 0 ≤ x) : 0 ≤ F.roundMagnitude x := by
  have above : ((0 : Int) : K) * F.radix ^ F.lastPlace x ≤ x := by simpa using nonneg
  simpa using le_roundMagnitude above

theorem place_add (count : Nat) (e : Int) :
    (F.radix : K) ^ (count + e) = ((F.radix ^ count : Int) : K) * F.radix ^ e := by
  rw [zpow_add₀ (one_pos.trans one_lt_radix).ne', zpow_natCast]
  push_cast
  rfl

/-- No number has more places than the precision. -/
theorem le_full_places (x : K) :
    x ≤ ((F.radix ^ F.precision : Int) : K) * F.radix ^ F.lastPlace x := by
  have exponent : Int.log F.radix x + 1 ≤ F.precision + F.lastPlace x := by
    rw [lastPlace]
    omega
  calc x ≤ (F.radix : K) ^ (Int.log F.radix x + 1) :=
        (Int.lt_zpow_succ_log_self F.wide x).le
    _ ≤ (F.radix : K) ^ (F.precision + F.lastPlace x) :=
        zpow_le_zpow_right₀ one_lt_radix.le exponent
    _ = ((F.radix ^ F.precision : Int) : K) * F.radix ^ F.lastPlace x := place_add _ _

/-- Above the smallest place all the places are taken. -/
theorem leading_place_le (pos : 0 < x) (normal : F.minExponent < F.lastPlace x) :
    ((F.radix ^ (F.precision - 1) : Int) : K) * F.radix ^ F.lastPlace x ≤ x := by
  have precise := F.precise
  have exponent : ((F.precision - 1 : Nat) : Int) + F.lastPlace x =
      Int.log F.radix x := by
    rw [lastPlace] at normal ⊢
    omega
  calc ((F.radix ^ (F.precision - 1) : Int) : K) * F.radix ^ F.lastPlace x =
        F.radix ^ (((F.precision - 1 : Nat) : Int) + F.lastPlace x) :=
        (place_add _ _).symm
    _ = (F.radix : K) ^ Int.log F.radix x := by rw [exponent]
    _ ≤ x := Int.zpow_log_le_self F.wide pos

theorem lastPlace_mono (pos : 0 < x) (below : x ≤ y) :
    F.lastPlace x ≤ F.lastPlace y := by
  have exponents : Int.log F.radix x ≤ Int.log F.radix y := Int.log_mono_right pos below
  rw [lastPlace, lastPlace]
  omega

theorem roundMagnitude_mono (nonneg : 0 ≤ x) (below : x ≤ y) :
    F.roundMagnitude x ≤ F.roundMagnitude y := by
  rcases nonneg.eq_or_lt with rfl | pos
  · rw [roundMagnitude_zero]
    exact roundMagnitude_nonneg below
  · rcases (lastPlace_mono (F := F) pos below).lt_or_eq with coarser | same
    · have precise := F.precise
      have normal : F.minExponent < F.lastPlace y :=
        (le_max_right _ _).trans_lt coarser
      calc F.roundMagnitude x ≤
            ((F.radix ^ F.precision : Int) : K) * F.radix ^ F.lastPlace x :=
            roundMagnitude_le (le_full_places x)
        _ = (F.radix : K) ^ (F.precision + F.lastPlace x) := (place_add _ _).symm
        _ ≤ F.radix ^ (((F.precision - 1 : Nat) : Int) + F.lastPlace y) :=
            zpow_le_zpow_right₀ one_lt_radix.le (by omega)
        _ = ((F.radix ^ (F.precision - 1) : Int) : K) * F.radix ^ F.lastPlace y :=
            place_add _ _
        _ ≤ F.roundMagnitude y :=
            le_roundMagnitude (leading_place_le (pos.trans_le below) normal)
    · have quotients : x / F.radix ^ F.lastPlace y ≤ y / F.radix ^ F.lastPlace y :=
        div_le_div_of_nonneg_right below (place_pos _).le
      rw [roundMagnitude, roundMagnitude, same]
      exact mul_le_mul_of_nonneg_right
        (Int.cast_le.mpr (nearestEven_mono quotients)) (place_pos _).le

/-- A multiple of a last place is its own rounding. -/
theorem roundMagnitude_of_places (count : Nat) (e : Int)
    (fits : count ≤ F.radix ^ F.precision) (placed : F.minExponent ≤ e) :
    F.roundMagnitude ((count : K) * F.radix ^ e) = count * F.radix ^ e := by
  have of_finer : F.lastPlace ((count : K) * F.radix ^ e) ≤ e →
      F.roundMagnitude ((count : K) * F.radix ^ e) = count * F.radix ^ e := by
    intro finer
    apply roundMagnitude_of_count
      (count * F.radix ^ (e - F.lastPlace ((count : K) * F.radix ^ e)).toNat)
    generalize F.lastPlace ((count : K) * F.radix ^ e) = place at finer ⊢
    have shift : e = ((e - place).toNat : Int) + place := by omega
    calc (count : K) * F.radix ^ e =
          count * F.radix ^ (((e - place).toNat : Int) + place) := by rw [← shift]
      _ = ((count * F.radix ^ (e - place).toNat : Int) : K) * F.radix ^ place := by
          rw [place_add]
          push_cast
          rw [mul_assoc]
  rcases Nat.eq_zero_or_pos count with rfl | counted
  · simp
  have pos : (0 : K) < count * F.radix ^ e :=
    mul_pos (Nat.cast_pos.mpr counted) (place_pos e)
  rcases fits.lt_or_eq with fewer | full
  · apply of_finer
    have digits : Int.log F.radix ((count : K) * F.radix ^ e) < F.precision + e := by
      rw [← Int.lt_zpow_iff_log_lt F.wide pos, place_add]
      exact mul_lt_mul_of_pos_right (by exact_mod_cast fewer) (place_pos e)
    rw [lastPlace]
    omega
  · have power : (count : K) * F.radix ^ e = F.radix ^ (F.precision + e) := by
      rw [place_add, full]
      push_cast
      rfl
    have digits : Int.log F.radix ((count : K) * F.radix ^ e) = F.precision + e := by
      rw [power, Int.log_zpow F.wide]
    rcases le_or_gt (F.lastPlace ((count : K) * F.radix ^ e)) e with finer | coarser
    · exact of_finer finer
    · have precise := F.precise
      have place : F.lastPlace ((count : K) * F.radix ^ e) = e + 1 := by
        rw [lastPlace, digits]
        rw [lastPlace, digits] at coarser
        omega
      apply roundMagnitude_of_count (F.radix ^ (F.precision - 1) : Int)
      rw [place, ← place_add, power]
      congr 1
      omega

theorem roundMagnitude_eq_places (nonneg : 0 ≤ x) :
    ∃ (count : Nat) (e : Int), count ≤ F.radix ^ F.precision ∧
      F.minExponent ≤ e ∧ F.roundMagnitude x = count * F.radix ^ e := by
  have least : 0 ≤ nearestEven (x / F.radix ^ F.lastPlace x) :=
    le_nearestEven (by simpa using div_nonneg nonneg (place_pos _).le)
  obtain ⟨count, counted⟩ := Int.eq_ofNat_of_zero_le least
  refine ⟨count, F.lastPlace x, ?_, le_max_right _ _, ?_⟩
  · have most : nearestEven (x / F.radix ^ F.lastPlace x) ≤ F.radix ^ F.precision :=
      nearestEven_le ((div_le_iff₀ (place_pos _)).mpr (le_full_places x))
    rw [counted] at most
    exact_mod_cast most
  · rw [roundMagnitude, counted, Int.cast_natCast]

omit [IsStrictOrderedRing K] in
theorem round_of_nonneg (nonneg : 0 ≤ x) : F.round x = F.roundMagnitude x :=
  if_neg (not_lt.mpr nonneg)

theorem round_nonneg (nonneg : 0 ≤ x) : 0 ≤ F.round x := by
  rw [round_of_nonneg nonneg]
  exact roundMagnitude_nonneg nonneg

@[simp]
theorem round_zero : F.round (0 : K) = 0 := by
  rw [round_of_nonneg le_rfl, roundMagnitude_zero]

theorem round_neg (x : K) : F.round (-x) = -F.round x := by
  rcases lt_trichotomy x 0 with below | rfl | above
  · rw [round_of_nonneg (neg_pos.mpr below).le, round, if_pos below, neg_neg]
  · rw [neg_zero, round_zero, neg_zero]
  · rw [round_of_nonneg above.le, round, if_pos (neg_lt_zero.mpr above),
      neg_neg]

theorem round_mono {x y : K} (below : x ≤ y) : F.round x ≤ F.round y := by
  rcases le_or_gt 0 x with nonneg | negative
  · rw [round_of_nonneg nonneg, round_of_nonneg (nonneg.trans below)]
    exact roundMagnitude_mono nonneg below
  · rcases le_or_gt 0 y with nonneg | negative'
    · rw [round, if_pos negative]
      exact (neg_nonpos.mpr (roundMagnitude_nonneg
        (neg_pos.mpr negative).le)).trans (round_nonneg nonneg)
    · rw [round, round, if_pos negative, if_pos negative', neg_le_neg_iff]
      exact roundMagnitude_mono (neg_pos.mpr negative').le
        (neg_le_neg_iff.mpr below)

theorem round_of_places (count : Nat) (e : Int)
    (fits : count ≤ F.radix ^ F.precision) (placed : F.minExponent ≤ e) :
    F.round ((count : K) * F.radix ^ e) = count * F.radix ^ e := by
  rw [round_of_nonneg (mul_nonneg (Nat.cast_nonneg _) (place_pos e).le)]
  exact roundMagnitude_of_places count e fits placed

theorem one_le_places : 1 ≤ F.radix ^ F.precision :=
  Nat.one_le_pow _ _ (Nat.zero_lt_of_lt F.wide)

theorem round_zpow (e : Int) (placed : F.minExponent ≤ e) :
    F.round ((F.radix : K) ^ e) = F.radix ^ e := by
  simpa using round_of_places (K := K) 1 e one_le_places placed

theorem round_round (x : K) : F.round (F.round x) = F.round x := by
  have of_nonneg {x : K} (nonneg : 0 ≤ x) :
      F.round (F.round x) = F.round x := by
    obtain ⟨count, e, fits, placed, places⟩ :=
      roundMagnitude_eq_places (F := F) nonneg
    rw [round_of_nonneg nonneg, places]
    exact round_of_places count e fits placed
  rcases le_or_gt 0 x with nonneg | negative
  · exact of_nonneg nonneg
  · have mirrored := of_nonneg (neg_pos.mpr negative).le
    rwa [round_neg, round_neg, neg_inj] at mirrored

end Rounding

end FloatFormat

/-- A result of floating-point arithmetic. There is one zero only. -/
inductive Floating (K : Type*)
  | finite (value : K)
  | infinite (negative : Bool)
  | nan
  deriving DecidableEq

namespace Floating

section Order

variable {K : Type*} [Zero K] [LT K] [DecidableEq K] [DecidableLT K]

def isPositive : Floating K → Bool
  | finite value => 0 < value
  | infinite negative => !negative
  | nan => false

def isZero : Floating K → Bool
  | finite value => value = 0
  | _ => false

end Order

/-- At least `low`, or infinite. -/
def AtLeast {K : Type*} [LE K] (low : K) (number : Floating K) : Prop :=
  number = infinite false ∨ ∃ value, number = finite value ∧ low ≤ value

def Between {K : Type*} [LE K] (low high : K) (number : Floating K) : Prop :=
  ∃ value, number = finite value ∧ low ≤ value ∧ value ≤ high

def neg {K : Type*} [Neg K] : Floating K → Floating K
  | finite value => finite (-value)
  | infinite negative => infinite (!negative)
  | nan => nan

end Floating

namespace FloatFormat

open Floating

variable (F : FloatFormat) {K : Type*} [Field K] [LinearOrder K] [FloorRing K]

/-- The number nearest to `x`, and infinite where it is out of range. -/
@[irreducible]
def ofExact (x : K) : Floating K :=
  if |F.round x| < (F.radix : K) ^ F.maxExponent then finite (F.round x)
  else infinite (x < 0)

def add : Floating K → Floating K → Floating K
  | nan, _ => nan
  | _, nan => nan
  | infinite negative, infinite negative' =>
      if negative = negative' then infinite negative else nan
  | infinite negative, finite _ => infinite negative
  | finite _, infinite negative => infinite negative
  | finite x, finite y => F.ofExact (x + y)

def sub (x y : Floating K) : Floating K :=
  F.add x y.neg

def mul : Floating K → Floating K → Floating K
  | nan, _ => nan
  | _, nan => nan
  | infinite negative, infinite negative' => infinite (negative ^^ negative')
  | infinite negative, finite y =>
      if y = 0 then nan else infinite (negative ^^ decide (y < 0))
  | finite x, infinite negative =>
      if x = 0 then nan else infinite (decide (x < 0) ^^ negative)
  | finite x, finite y => F.ofExact (x * y)

/-- `none` where the divisor is zero. -/
def div : Floating K → Floating K → Option (Floating K)
  | nan, divisor => if divisor.isZero then none else some nan
  | _, nan => some nan
  | infinite _, infinite _ => some nan
  | infinite negative, finite y =>
      if y = 0 then none else some (infinite (negative ^^ decide (y < 0)))
  | finite _, infinite _ => some (finite 0)
  | finite x, finite y =>
      if y = 0 then none else some (F.ofExact (x / y))

/-- The sum of a list, rounded after each entry. -/
def total (entries : List K) : Floating K :=
  entries.foldl (fun sum entry => F.add sum (F.ofExact entry)) (finite 0)

/-- The sum leaves the range on the way. -/
def Overflows (entries : List K) : Prop :=
  F.total entries = infinite false

instance (entries : List K) : Decidable (F.Overflows entries) :=
  inferInstanceAs (Decidable (_ = _))

variable {F} {x low high : K}

theorem ofExact_of_range (inside : |F.round x| < (F.radix : K) ^ F.maxExponent) :
    F.ofExact x = finite (F.round x) := by
  rw [ofExact, if_pos inside]

example : binary64.ofExact (1 / 10 : Rat) =
    finite (3602879701896397 / 2 ^ 55) := by decide +kernel

example : binary64.ofExact (2 ^ 1024 - 2 ^ 970 : Rat) = infinite false := by
  decide +kernel

variable (F) in
/-- What the format holds, a finite number only as it is rounded. -/
def Holds (number : Floating K) : Prop :=
  ∀ value, number = finite value → F.ofExact value = finite value

theorem isSome_div (number divisor : Floating K) :
    (F.div number divisor).isSome = !divisor.isZero := by
  cases number with
  | nan => cases divisor <;> simp [div, isZero, apply_ite Option.isSome]
  | infinite negative =>
      cases divisor <;> simp [div, isZero, apply_ite Option.isSome]
  | finite value =>
      cases divisor <;> simp [div, isZero, apply_ite Option.isSome]

theorem add_zero_of_holds {number : Floating K} (held : F.Holds number) :
    F.add number (finite 0) = number := by
  cases number with
  | finite value => rw [add, add_zero, held value rfl]
  | infinite negative => rfl
  | nan => rfl

variable [IsStrictOrderedRing K]

@[simp]
theorem ofExact_zero : F.ofExact (0 : K) = finite 0 := by
  have inside : |F.round (0 : K)| < (F.radix : K) ^ F.maxExponent := by
    rw [round_zero, abs_zero]
    exact place_pos _
  rw [ofExact_of_range inside, round_zero]

theorem ofExact_neg (x : K) : F.ofExact (-x) = (F.ofExact x).neg := by
  unfold ofExact
  rw [round_neg, abs_neg]
  split
  next => rfl
  next outside =>
      have nonzero : x ≠ 0 := by
        rintro rfl
        rw [round_zero, abs_zero] at outside
        exact outside (place_pos _)
      rcases nonzero.lt_or_gt with below | above
      · simp [neg, below, below.le]
      · simp [neg, above, above.le]

theorem isPositive_ofExact (x : K) (positive : (F.ofExact x).isPositive = true) :
    0 < x := by
  unfold ofExact at positive
  split at positive
  next =>
      have above : 0 < F.round x := of_decide_eq_true positive
      refine lt_of_not_ge fun below => above.not_ge ?_
      exact (round_mono below).trans_eq round_zero
  next outside =>
      have above : 0 ≤ x := by simpa [isPositive] using positive
      refine above.lt_of_ne' ?_
      rintro rfl
      rw [round_zero, abs_zero] at outside
      exact outside (place_pos _)

/-- What is positive and rounded to no positive number is rounded to zero. -/
theorem ofExact_of_lost (pos : 0 < x)
    (lost : (F.ofExact x).isPositive = false) : F.ofExact x = finite 0 := by
  unfold ofExact at lost ⊢
  split at lost
  next inside =>
      have below : F.round x ≤ 0 := not_lt.mp (of_decide_eq_false lost)
      rw [if_pos inside, below.antisymm (round_nonneg pos.le)]
  next => simp [isPositive, pos.not_gt] at lost

theorem ofExact_between (exactLow : F.round low = low)
    (exactHigh : F.ofExact high = finite high) (nonneg : 0 ≤ low)
    (above : low ≤ x) (below : x ≤ high) :
    Between low high (F.ofExact x) := by
  have within : low ≤ F.round x ∧ F.round x ≤ F.round high :=
    ⟨exactLow.symm.trans_le (round_mono above), round_mono below⟩
  have upper : F.round high = high ∧
      |F.round high| < (F.radix : K) ^ F.maxExponent := by
    unfold ofExact at exactHigh
    split at exactHigh
    next inside => exact ⟨Floating.finite.inj exactHigh, inside⟩
    next => cases exactHigh
  refine ⟨F.round x, ofExact_of_range ?_, within.1,
    within.2.trans_eq upper.1⟩
  rw [abs_of_nonneg (nonneg.trans within.1)]
  exact within.2.trans_lt ((le_abs_self _).trans_lt upper.2)

theorem ofExact_atLeast (exact : F.round low = low) (nonneg : 0 ≤ low)
    (above : low ≤ x) : AtLeast low (F.ofExact x) := by
  unfold ofExact
  split
  next => exact .inr ⟨_, rfl, exact.symm.trans_le (round_mono above)⟩
  next =>
      rw [decide_eq_false (not_lt.mpr (nonneg.trans above))]
      exact .inl rfl

theorem holds_ofExact (x : K) : F.Holds (F.ofExact x) := by
  intro value same
  unfold ofExact at same
  split at same
  next inside =>
      cases same
      rw [← round_round] at inside
      rw [ofExact_of_range inside, round_round]
  next => cases same

theorem holds_zero : F.Holds (finite (0 : K)) := by
  rw [← ofExact_zero (F := F)]
  exact holds_ofExact 0

theorem holds_add (x y : Floating K) : F.Holds (F.add x y) := by
  intro value same
  unfold add at same
  split at same
  case h_6 => exact holds_ofExact _ value same
  case h_3 => split at same <;> cases same
  all_goals cases same

theorem add_atLeast {low' : K} {number number' : Floating K}
    (exact : F.round (low + low') = low + low') (nonneg : 0 ≤ low + low')
    (above : AtLeast low number) (above' : AtLeast low' number') :
    AtLeast (low + low') (F.add number number') := by
  obtain rfl | ⟨value, rfl, atLeast⟩ := above
  · obtain rfl | ⟨value', rfl, _⟩ := above' <;> exact .inl rfl
  · obtain rfl | ⟨value', rfl, atLeast'⟩ := above'
    · exact .inl rfl
    · exact ofExact_atLeast exact nonneg (add_le_add atLeast atLeast')

theorem add_atLeast_zero {number number' : Floating K} (above : AtLeast 0 number)
    (above' : AtLeast 0 number') : AtLeast 0 (F.add number number') := by
  have exact : F.round ((0 : K) + 0) = 0 + 0 := by rw [add_zero, round_zero]
  simpa using add_atLeast exact (by rw [add_zero]) above above'

/-- Divided by at least 1, a number stays below itself. -/
theorem div_between {divisor : Floating K} (held : F.ofExact x = finite x)
    (nonneg : 0 ≤ x) (above : AtLeast 1 divisor) :
    ∃ quotient, F.div (finite x) divisor = some quotient ∧
      Between 0 x quotient := by
  obtain rfl | ⟨value, rfl, atLeast⟩ := above
  · exact ⟨finite 0, rfl, 0, rfl, le_rfl, nonneg⟩
  · have pos : 0 < value := one_pos.trans_le atLeast
    refine ⟨F.ofExact (x / value), if_neg pos.ne', ?_⟩
    exact ofExact_between round_zero held le_rfl (div_nonneg nonneg pos.le)
      (div_le_self nonneg atLeast)

omit [IsStrictOrderedRing K] in
theorem div_infinite_finite {divisor : K} (above : 0 < divisor) :
    F.div (infinite false) (finite divisor) = some (infinite false) := by
  rw [div, if_neg above.ne', decide_eq_false above.not_gt]
  rfl

theorem div_atLeast_zero {number divisor : Floating K} (above : AtLeast 0 number)
    (above' : AtLeast 0 divisor) (nonzero : divisor.isZero = false)
    (bounded : number = infinite false → divisor ≠ infinite false) :
    ∃ quotient, F.div number divisor = some quotient ∧ AtLeast 0 quotient := by
  obtain rfl | ⟨value', rfl, atLeast'⟩ := above'
  · obtain rfl | ⟨value, rfl, atLeast⟩ := above
    · exact absurd rfl (bounded rfl)
    · exact ⟨finite 0, rfl, .inr ⟨0, rfl, le_rfl⟩⟩
  · have nonzero' : value' ≠ 0 := of_decide_eq_false nonzero
    obtain rfl | ⟨value, rfl, atLeast⟩ := above
    · exact ⟨infinite false,
        div_infinite_finite (atLeast'.lt_of_ne' nonzero'), .inl rfl⟩
    · exact ⟨F.ofExact (value / value'), if_neg nonzero',
        ofExact_atLeast round_zero le_rfl (div_nonneg atLeast atLeast')⟩

theorem sub_between {number : Floating K} (held : F.ofExact high = finite high)
    (within : Between 0 high number) :
    Between 0 high (F.sub (finite high) number) := by
  obtain ⟨value, rfl, nonneg, below⟩ := within
  apply ofExact_between round_zero held le_rfl
  · linarith
  · linarith

omit [IsStrictOrderedRing K] in
theorem total_concat (entries : List K) (entry : K) :
    F.total (entries ++ [entry]) = F.add (F.total entries) (F.ofExact entry) := by
  rw [total, List.foldl_concat]
  rfl

theorem holds_total (entries : List K) : F.Holds (F.total entries) := by
  induction entries using List.reverseRecOn with
  | nil => exact holds_zero
  | append_singleton rest entry _ =>
      rw [total_concat]
      exact holds_add _ _

theorem total_atLeast_zero {entries : List K}
    (nonneg : ∀ entry ∈ entries, 0 ≤ entry) :
    AtLeast 0 (F.total entries) := by
  induction entries using List.reverseRecOn with
  | nil => exact .inr ⟨0, rfl, le_rfl⟩
  | append_singleton rest entry induction =>
      rw [total_concat]
      apply add_atLeast_zero
      · exact induction fun other member =>
          nonneg other (List.mem_append_left _ member)
      · exact ofExact_atLeast round_zero le_rfl
          (nonneg entry List.mem_concat_self)

theorem ofExact_places (count : Nat) (e : Int)
    (fits : count ≤ F.radix ^ F.precision) (placed : F.minExponent ≤ e)
    (inside : (count : K) * F.radix ^ e < (F.radix : K) ^ F.maxExponent) :
    F.ofExact ((count : K) * F.radix ^ e) = finite ((count : K) * F.radix ^ e) := by
  have exact := round_of_places (F := F) (K := K) count e fits placed
  have nonneg : 0 ≤ (count : K) * F.radix ^ e :=
    mul_nonneg (Nat.cast_nonneg _) (place_pos e).le
  have inRange : |F.round ((count : K) * F.radix ^ e)| <
      (F.radix : K) ^ F.maxExponent := by
    rwa [exact, abs_of_nonneg nonneg]
  rw [ofExact_of_range inRange, exact]

theorem ofExact_zpow {e : Int} (placed : F.minExponent ≤ e)
    (inside : e < F.maxExponent) :
    F.ofExact ((F.radix : K) ^ e) = finite ((F.radix : K) ^ e) := by
  have bounded : ((1 : Nat) : K) * F.radix ^ e < (F.radix : K) ^ F.maxExponent := by
    rw [Nat.cast_one, one_mul]
    exact zpow_lt_zpow_right₀ one_lt_radix inside
  simpa using ofExact_places (F := F) (K := K) 1 e one_le_places placed bounded

theorem ofExact_natCast {count : Nat} (fits : count ≤ F.radix ^ F.precision)
    (placed : F.minExponent ≤ 0) (inside : F.precision < F.maxExponent) :
    F.ofExact (count : K) = finite (count : K) := by
  have bounded : (count : K) * F.radix ^ (0 : Int) < (F.radix : K) ^ F.maxExponent := by
    calc (count : K) * F.radix ^ (0 : Int) = count := by rw [zpow_zero, mul_one]
      _ ≤ ((F.radix ^ F.precision : Nat) : K) := Nat.cast_le.mpr fits
      _ = (F.radix : K) ^ (F.precision : Int) := by
          rw [zpow_natCast, Nat.cast_pow]
      _ < (F.radix : K) ^ F.maxExponent := zpow_lt_zpow_right₀ one_lt_radix inside
  simpa using ofExact_places count 0 fits placed bounded

/-- A sum of few entries of at most `radix ^ e` is not rounded above what they
allow together. -/
theorem total_between {entries : List K} {e : Int}
    (within : ∀ entry ∈ entries, 0 ≤ entry ∧ entry ≤ F.radix ^ e)
    (few : entries.length ≤ F.radix ^ F.precision) (placed : F.minExponent ≤ e)
    (inside : (entries.length : K) * F.radix ^ e < (F.radix : K) ^ F.maxExponent) :
    Between 0 ((entries.length : K) * F.radix ^ e) (F.total entries) := by
  induction entries using List.reverseRecOn with
  | nil => exact ⟨0, rfl, le_rfl, by simp⟩
  | append_singleton rest entry induction =>
      have grown : (((rest ++ [entry]).length : Nat) : K) * F.radix ^ e =
          rest.length * F.radix ^ e + F.radix ^ e := by
        rw [List.length_append, List.length_singleton, Nat.cast_add,
          Nat.cast_one, add_mul, one_mul]
      have held := ofExact_places (F := F) (K := K) _ e few placed inside
      have nonneg : 0 ≤ (rest.length : K) * F.radix ^ e :=
        mul_nonneg (Nat.cast_nonneg _) (place_pos e).le
      rw [grown] at held inside ⊢
      rw [List.length_append, List.length_singleton] at few
      have single : F.ofExact ((F.radix : K) ^ e) = finite ((F.radix : K) ^ e) := by
        apply ofExact_zpow placed
        rw [← zpow_lt_zpow_iff_right₀ (one_lt_radix (K := K))]
        linarith
      obtain ⟨sum, summed, sumNonneg, sumBelow⟩ := induction
        (fun other member => within other (List.mem_append_left _ member))
        (by omega) (by linarith [place_pos (F := F) (K := K) e])
      have last := within entry List.mem_concat_self
      obtain ⟨value, rounded, valueNonneg, valueBelow⟩ :=
        ofExact_between (F := F) round_zero single le_rfl last.1 last.2
      rw [total_concat, summed, rounded]
      apply ofExact_between round_zero held le_rfl
      · linarith
      · linarith

theorem not_overflows {entries : List K} {e : Int}
    (within : ∀ entry ∈ entries, 0 ≤ entry ∧ entry ≤ F.radix ^ e)
    (few : entries.length ≤ F.radix ^ F.precision) (placed : F.minExponent ≤ e)
    (inside : (entries.length : K) * F.radix ^ e < (F.radix : K) ^ F.maxExponent) :
    ¬ F.Overflows entries := by
  obtain ⟨sum, summed, _⟩ := total_between within few placed inside
  rw [Overflows, summed]
  exact fun same => by cases same

end FloatFormat

end Library
