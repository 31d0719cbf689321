import TradingBot.Risk.NetPosition
import TradingBot.Library.Trace
import Mathlib.Tactic.Linarith
import Mathlib.Tactic.NormNum

namespace TradingBot

open Library

/-! `canOpenPosition` and `updatePosition` where the sum of what is held and
what is added wraps. -/

namespace RiskManager

/-- `getPosition(symbol).quantity`, which is 0 for a symbol not held. -/
def heldQuantity (manager : RiskManager) (symbol : String) : UInt64 :=
  ((manager.getPosition symbol).map Position.quantity).getD 0

def afterBooking (limits : RiskLimits)
    (booked : List (Trade × Uninitialized)) : RiskManager :=
  (init.setRiskLimits limits).run (bookings booked)

/-- The check compares the unbounded sum with the limit, and a trade it lets
pass makes that sum the stored quantity. -/
structure ChecksExactly (manager : RiskManager) (symbol : String)
    (quantity : UInt64) : Prop where
  granted : manager.canOpenPosition symbol quantity = true ↔
    ((manager.heldQuantity symbol).toNat + quantity.toNat : Rat) ≤
      manager.limits.maxPositionSize
  stored : manager.canOpenPosition symbol quantity = true →
    ∀ (trade : Trade) (contents : Uninitialized), trade.symbol = symbol →
      trade.quantity = quantity →
      ∃ position,
        (manager.updatePosition trade contents).getPosition symbol =
            some position ∧
          position.quantity.toNat =
            (manager.heldQuantity symbol).toNat + quantity.toNat

/-- The sum fits in 64 bits, or the added quantity alone exceeds the limit. -/
def SumFits (manager : RiskManager) (symbol : String) (quantity : UInt64) :
    Prop :=
  (manager.heldQuantity symbol).toNat + quantity.toNat < 2 ^ 64 ∨
    manager.limits.maxPositionSize < quantity.toNat

/-- Every trade was let pass by `canOpenPosition` right before. -/
def Checked (limits : RiskLimits) : List (Trade × Uninitialized) → Prop :=
  EveryEntry fun earlier entry =>
    (afterBooking limits earlier).canOpenPosition entry.1.symbol
      entry.1.quantity = true

/-- Half of the `uint64_t` range in one trade. -/
def halfRange : Trade × Uninitialized :=
  (tradeOf "AAPL" .buy 9223372036854775808 0, untouched)

section Check

variable {manager : RiskManager} {symbol : String} {quantity : UInt64}

theorem canOpenPosition_iff :
    manager.canOpenPosition symbol quantity = true ↔
      (quantity.toNat : Rat) ≤ manager.limits.maxPositionSize ∧
        ((manager.heldQuantity symbol + quantity).toNat : Rat) ≤
          manager.limits.maxPositionSize :=
  manager.canOpenPosition_eq_true

theorem exists_enlarged (manager : RiskManager) (trade : Trade)
    (contents : Uninitialized) :
    ∃ position,
      (manager.updatePosition trade contents).getPosition trade.symbol =
          some position ∧
        position.quantity =
          manager.heldQuantity trade.symbol + trade.quantity := by
  rw [getPosition, updatePosition_positions, if_pos rfl, heldQuantity,
    getPosition]
  cases manager.positions[trade.symbol]? with
  | none => exact ⟨_, rfl, (UInt64.zero_add _).symm⟩
  | some position => exact ⟨_, rfl, rfl⟩

theorem toNat_sum_of_fits
    (fits : (manager.heldQuantity symbol).toNat + quantity.toNat < 2 ^ 64) :
    (manager.heldQuantity symbol + quantity).toNat =
      (manager.heldQuantity symbol).toNat + quantity.toNat := by
  rw [UInt64.toNat_add, Nat.mod_eq_of_lt fits]

/-- A wrapped sum is below both of its parts. -/
theorem toNat_sum_of_wraps
    (wraps : 2 ^ 64 ≤ (manager.heldQuantity symbol).toNat + quantity.toNat) :
    (manager.heldQuantity symbol + quantity).toNat < quantity.toNat := by
  have held := (manager.heldQuantity symbol).toNat_lt
  have added := quantity.toNat_lt
  rw [UInt64.toNat_add]
  omega

theorem checksExactly_of_fits
    (fits : (manager.heldQuantity symbol).toNat + quantity.toNat < 2 ^ 64) :
    manager.ChecksExactly symbol quantity where
  granted := by
    rw [canOpenPosition_iff, toNat_sum_of_fits fits, Nat.cast_add]
    refine ⟨And.right, fun sum => ⟨?_, sum⟩⟩
    exact (le_add_of_nonneg_left (Nat.cast_nonneg _)).trans sum
  stored := by
    rintro - trade contents rfl rfl
    obtain ⟨position, stored, sum⟩ := manager.exists_enlarged trade contents
    exact ⟨position, stored, by rw [sum, toNat_sum_of_fits fits]⟩

theorem checksExactly_of_exceeds
    (exceeds : manager.limits.maxPositionSize < quantity.toNat) :
    manager.ChecksExactly symbol quantity := by
  have refused : ¬ manager.canOpenPosition symbol quantity = true := by
    rw [canOpenPosition_iff]
    exact fun granted => not_le.mpr exceeds granted.1
  refine ⟨iff_of_false refused ?_, fun granted => absurd granted refused⟩
  rw [not_le]
  exact exceeds.trans_le (le_add_of_nonneg_left (Nat.cast_nonneg _))

/-- A sum that wraps passes the check on it and is stored wrapped. -/
theorem ChecksExactly.sumFits (exactly : manager.ChecksExactly symbol quantity) :
    manager.SumFits symbol quantity := by
  by_contra misfits
  obtain ⟨wraps, under⟩ := not_or.mp misfits
  have below := toNat_sum_of_wraps (not_lt.mp wraps)
  have within := not_lt.mp under
  have passed : manager.canOpenPosition symbol quantity = true := by
    rw [canOpenPosition_iff]
    exact ⟨within, (Nat.cast_le.mpr below.le).trans within⟩
  obtain ⟨position, found, stored⟩ :=
    exactly.stored passed (tradeOf symbol .buy quantity 0) untouched rfl rfl
  have range := position.quantity.toNat_lt
  omega

theorem checksExactly_iff :
    manager.ChecksExactly symbol quantity ↔ manager.SumFits symbol quantity := by
  refine ⟨ChecksExactly.sumFits, fun sum => ?_⟩
  rcases sum with fits | exceeds
  · exact checksExactly_of_fits fits
  · exact checksExactly_of_exceeds exceeds

end Check

/-- The check is exact in every state of a run exactly if in every state the
sum fits or the quantity is refused by itself. -/
theorem checks_exactly_throughout_iff (limits : RiskLimits)
    (booked : List (Trade × Uninitialized)) (symbol : String)
    (quantity : UInt64) :
    EveryPrefix (fun earlier =>
        (afterBooking limits earlier).ChecksExactly symbol quantity) booked ↔
      EveryPrefix (fun earlier =>
        (afterBooking limits earlier).SumFits symbol quantity) booked := by
  constructor
  · intro exactly earlier later split
    exact (exactly earlier later split).sumFits
  · intro fits earlier later split
    exact checksExactly_iff.mpr (fits earlier later split)

/-- Two halves make 0, which is under any limit. -/
theorem wrapped_sum_passes_check :
    ¬ (afterBooking { init.limits with maxPositionSize := 10 ^ 19 }
        [halfRange]).ChecksExactly "AAPL" 9223372036854775808 := by
  intro exactly
  have granted := exactly.granted
  revert granted
  decide +kernel

theorem afterBooking_concat (limits : RiskLimits)
    (booked : List (Trade × Uninitialized)) (entry : Trade × Uninitialized) :
    afterBooking limits (booked ++ [entry]) =
      (afterBooking limits booked).updatePosition entry.1 entry.2 := by
  rw [afterBooking, bookings, List.map_append, run_append]
  rfl

theorem afterBooking_limits (limits : RiskLimits)
    (booked : List (Trade × Uninitialized)) :
    (afterBooking limits booked).limits = limits :=
  run_limits _ (bookings_trading booked)

theorem heldQuantity_updatePosition (manager : RiskManager) (trade : Trade)
    (contents : Uninitialized) (key : String) :
    (manager.updatePosition trade contents).heldQuantity key =
      if key = trade.symbol then manager.heldQuantity key + trade.quantity
      else manager.heldQuantity key := by
  split
  next same =>
      obtain ⟨position, stored, sum⟩ := manager.exists_enlarged trade contents
      rw [heldQuantity, same, stored, ← sum]
      rfl
  next differ =>
      rw [heldQuantity, getPosition, updatePosition_positions, if_neg differ,
        heldQuantity, getPosition]

theorem heldQuantity_nil (limits : RiskLimits) (symbol : String) :
    (afterBooking limits []).heldQuantity symbol = 0 := by
  simp [afterBooking, bookings, heldQuantity, getPosition, init, setRiskLimits]

theorem checked_halfRange {limits : RiskLimits}
    (high : 2 ^ 63 ≤ limits.maxPositionSize) : Checked limits [halfRange] := by
  have within : ((halfRange.1.quantity.toNat : Nat) : Rat) ≤
      limits.maxPositionSize := le_trans (by decide +kernel) high
  refine everyEntry_concat.mpr ⟨everyEntry_nil _, ?_⟩
  rw [canOpenPosition_iff, afterBooking_limits, heldQuantity_nil,
    UInt64.zero_add]
  exact ⟨within, within⟩

/-- Under a limit below half the range, checked trades keep every position in
that half. -/
theorem heldQuantity_lt_of_checked {limits : RiskLimits}
    (low : limits.maxPositionSize < 2 ^ 63)
    {booked : List (Trade × Uninitialized)} (checked : Checked limits booked)
    (symbol : String) :
    ((afterBooking limits booked).heldQuantity symbol).toNat < 2 ^ 63 := by
  induction booked using List.reverseRecOn with
  | nil =>
      rw [heldQuantity_nil]
      decide
  | append_singleton booked entry induction =>
      obtain ⟨earlier, passed⟩ := everyEntry_concat.mp checked
      rw [afterBooking_concat, heldQuantity_updatePosition]
      split
      next same =>
          have within := (canOpenPosition_iff.mp passed).2
          rw [afterBooking_limits, ← same] at within
          exact_mod_cast within.trans_lt low
      next => exact induction earlier

/-- Trading only what the check lets pass keeps every check exact, precisely
for limits below half the range. -/
theorem checked_runs_exact_iff (limits : RiskLimits) :
    (∀ booked, Checked limits booked → ∀ symbol quantity,
        (afterBooking limits booked).ChecksExactly symbol quantity) ↔
      limits.maxPositionSize < 2 ^ 63 := by
  constructor
  · intro always
    by_contra high
    have wide : (2 ^ 63 : Rat) ≤ limits.maxPositionSize := not_lt.mp high
    have sum := (always [halfRange] (checked_halfRange wide) "AAPL"
      halfRange.1.quantity).sumFits
    have held : (afterBooking limits [halfRange]).heldQuantity "AAPL" =
        halfRange.1.quantity := by
      rw [← List.nil_append [halfRange], afterBooking_concat,
        heldQuantity_updatePosition, heldQuantity_nil, UInt64.zero_add]
      rfl
    rw [SumFits, held, afterBooking_limits] at sum
    rcases sum with fits | exceeds
    · revert fits
      decide
    · refine absurd (exceeds.trans_le ?_) high
      decide +kernel
  · intro low booked checked symbol quantity
    rw [checksExactly_iff, SumFits, afterBooking_limits]
    have held := heldQuantity_lt_of_checked low checked symbol
    by_cases added : quantity.toNat < 2 ^ 63
    · exact .inl (by omega)
    · right
      have large : (2 ^ 63 : Rat) ≤ quantity.toNat := by
        exact_mod_cast not_lt.mp added
      exact low.trans_le large

end RiskManager

end TradingBot
