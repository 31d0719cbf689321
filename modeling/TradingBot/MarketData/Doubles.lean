import TradingBot.MarketData.StrengthIndex
import TradingBot.Library.FloatingPoint

namespace TradingBot

open Library FloatFormat Floating

/-! The indicators of `market_data.cpp` once more, now with the rounding and
the overflow of `double`. A price is any rational, so that every finite double
is one. -/

abbrev Double := Floating Rat

namespace Double

def ofSize (size : Nat) : Double :=
  binary64.ofExact size

def priceMomentum (prices : List Rat) : Option Double :=
  if prices.length < 2 then some (.finite 0)
  else
    let front := .finite (prices.headD 0)
    let change := binary64.div
      (binary64.sub (.finite (prices.getLastD 0)) front) front
    change.map fun change => binary64.mul change (.finite 100)

def priceVariance (prices : List Rat) : Option Double :=
  if prices.length < 2 then some (.finite 0)
  else do
    let sum := prices.foldl
      (fun mean price => binary64.add mean (.finite price)) (.finite 0)
    let mean ← binary64.div sum (ofSize prices.length)
    let deviations := prices.foldl
      (fun variance price =>
        let deviation := binary64.sub (.finite price) mean
        binary64.add variance (binary64.mul deviation deviation)) (.finite 0)
    binary64.div deviations (ofSize prices.length)

structure PriceMovement where
  gains : Double
  losses : Double
  deriving DecidableEq

namespace PriceMovement

def addChange (movement : PriceMovement) (change : Double) : PriceMovement :=
  if change.isPositive then
    { movement with gains := binary64.add movement.gains change }
  else { movement with losses := binary64.add movement.losses change.neg }

def addChanges (movement : PriceMovement) : List Rat → PriceMovement
  | previous :: price :: rest =>
      addChanges
        (movement.addChange (binary64.sub (.finite price) (.finite previous)))
        (price :: rest)
  | _ => movement

/-- What `calculateRSI` returns once the changes are added up. -/
def strength (movement : PriceMovement) (period : Double) : Option Double := do
  let avgGain ← binary64.div movement.gains period
  let avgLoss ← binary64.div movement.losses period
  if avgLoss.isZero then return .finite 100
  else
    let rs ← binary64.div avgGain avgLoss
    let quotient ← binary64.div (.finite 100) (binary64.add (.finite 1) rs)
    return binary64.sub (.finite 100) quotient

end PriceMovement

/-- The `variance` whose square root `calculateVolatility` returns. -/
def volatilityVariance (handler : MarketDataHandler) (symbol : String)
    (window : UInt64) : Option Double :=
  priceVariance (handler.recentPrices symbol window)

def calculateMomentum (handler : MarketDataHandler) (symbol : String)
    (period : UInt64) : Option Double :=
  priceMomentum (handler.recentPrices symbol period)

def calculateRSI (handler : MarketDataHandler) (symbol : String)
    (period : UInt64) : Option Double :=
  let prices := handler.recentPrices symbol (period + 1)
  if prices.length < (period + 1).toNat then some (.finite 50)
  else
    (PriceMovement.addChanges ⟨.finite 0, .finite 0⟩ prices).strength
      (ofSize period.toNat)

/-- Not both the upward and the downward changes of the prices add up to more
than a double holds. -/
def MovesInRange (prices : List Rat) : Prop :=
  ¬ (binary64.Overflows ((changes prices).map (·⁺)) ∧
    binary64.Overflows ((changes prices).map (·⁻)))

theorem round_one : binary64.round (1 : Rat) = 1 :=
  round_zpow (F := binary64) (K := Rat) 0 (by decide)

theorem ofSize_atLeast {size : Nat} (pos : 1 ≤ size) (few : size ≤ 2 ^ 64) :
    ∃ value, ofSize size = .finite value ∧ 1 ≤ value := by
  have most : binary64.ofExact ((2 : Rat) ^ (64 : Int)) = .finite (2 ^ (64 : Int)) :=
    ofExact_zpow (by decide) (by decide)
  obtain ⟨value, rounded, above, _⟩ := ofExact_between (x := (size : Rat))
    round_one most zero_le_one (by exact_mod_cast pos) (by exact_mod_cast few)
  exact ⟨value, rounded, above⟩

theorem isSome_priceMomentum (prices : List Rat) :
    (priceMomentum prices).isSome = true ↔
      (2 ≤ prices.length → prices.headD 0 ≠ 0) := by
  unfold priceMomentum
  split
  next few =>
      exact iff_of_true rfl fun enough => absurd enough (Nat.not_le.mpr few)
  next enough =>
      rw [Option.isSome_map, isSome_div, Floating.isZero]
      simp [Nat.not_lt.mp enough]

theorem isSome_priceVariance (prices : List Rat)
    (few : prices.length ≤ 2 ^ 64) : (priceVariance prices).isSome = true := by
  unfold priceVariance
  split
  next => rfl
  next enough =>
      obtain ⟨size, sized, counted⟩ := ofSize_atLeast
        (one_le_two.trans (Nat.not_lt.mp enough)) few
      have nonzero : (ofSize prices.length).isZero = false := by
        rw [sized, Floating.isZero]
        exact decide_eq_false (one_pos.trans_le counted).ne'
      have divides (number : Double) :
          (binary64.div number (ofSize prices.length)).isSome = true := by
        rw [isSome_div, nonzero]
        rfl
      obtain ⟨mean, averaged⟩ := Option.isSome_iff_exists.mp (divides _)
      dsimp only [bind]
      rw [averaged, Option.bind_some]
      exact divides _

namespace PriceMovement

variable {movement : PriceMovement}

theorem addChange_ofExact (heldGains : binary64.Holds movement.gains)
    (heldLosses : binary64.Holds movement.losses) (change : Rat) :
    movement.addChange (binary64.ofExact change) =
      { gains := binary64.add movement.gains (binary64.ofExact change⁺)
        losses := binary64.add movement.losses (binary64.ofExact change⁻) } := by
  unfold addChange
  split
  next gain =>
      have above : 0 < change := isPositive_ofExact change gain
      rw [posPart_eq_self.mpr above.le, negPart_eq_zero.mpr above.le,
        ofExact_zero, add_zero_of_holds heldLosses]
  next loss =>
      rcases le_or_gt change 0 with below | above
      · rw [posPart_eq_zero.mpr below, negPart_eq_neg.mpr below, ofExact_neg,
          ofExact_zero, add_zero_of_holds heldGains]
      · have lost := ofExact_of_lost above (Bool.eq_false_iff.mpr loss)
        rw [posPart_eq_self.mpr above.le, negPart_eq_zero.mpr above.le, lost,
          ofExact_zero, Floating.neg, neg_zero, add_zero_of_holds heldGains]

theorem addChanges_eq (prices : List Rat)
    (heldGains : binary64.Holds movement.gains)
    (heldLosses : binary64.Holds movement.losses) :
    movement.addChanges prices =
      { gains := ((changes prices).map (·⁺)).foldl
          (fun sum change => binary64.add sum (binary64.ofExact change))
          movement.gains
        losses := ((changes prices).map (·⁻)).foldl
          (fun sum change => binary64.add sum (binary64.ofExact change))
          movement.losses } := by
  induction movement, prices using addChanges.induct with
  | case1 movement previous price rest induction =>
      have change : binary64.sub (.finite price) (.finite previous) =
          binary64.ofExact (price - previous) := by
        rw [sub_eq_add_neg]
        rfl
      rw [change, addChange_ofExact heldGains heldLosses] at induction
      have heldGains' : binary64.Holds (binary64.add movement.gains
          (binary64.ofExact (price - previous)⁺)) := holds_add _ _
      have heldLosses' : binary64.Holds (binary64.add movement.losses
          (binary64.ofExact (price - previous)⁻)) := holds_add _ _
      rw [addChanges, change, addChange_ofExact heldGains heldLosses,
        induction heldGains' heldLosses', changes, List.map_cons,
        List.map_cons, List.foldl_cons, List.foldl_cons]
  | case2 prices movement few =>
      have still : changes prices = [] := by
        rw [changes]
        exact few
      rw [addChanges, still, List.map_nil, List.map_nil, List.foldl_nil,
        List.foldl_nil]
      exact few

/-- The loop of `calculateRSI` adds up the rises and the falls. -/
theorem addChanges_eq_totals (prices : List Rat) :
    addChanges ⟨.finite 0, .finite 0⟩ prices =
      { gains := binary64.total ((changes prices).map (·⁺))
        losses := binary64.total ((changes prices).map (·⁻)) } := by
  have held : binary64.Holds (.finite 0 : Double) := holds_zero
  exact addChanges_eq prices held held

/-- An average is infinite exactly if the sum is. -/
theorem exists_average {sum : Double} (held : binary64.Holds sum)
    (above : AtLeast 0 sum) {size : Rat} (counted : 1 ≤ size) :
    ∃ average, binary64.div sum (finite size) = some average ∧
      AtLeast 0 average ∧ (average = infinite false ↔ sum = infinite false) := by
  obtain rfl | ⟨value, rfl, nonneg⟩ := above
  · exact ⟨infinite false, div_infinite_finite (one_pos.trans_le counted),
      .inl rfl, Iff.rfl⟩
  · obtain ⟨average, divided, least, averaged, nonneg', _⟩ :=
      div_between (held value rfl) nonneg (.inr ⟨size, rfl, counted⟩)
    rw [averaged] at divided
    exact ⟨finite least, divided, .inr ⟨least, rfl, nonneg'⟩, by simp⟩

theorem ofExact_hundred : binary64.ofExact (100 : Rat) = finite 100 := by
  exact_mod_cast ofExact_natCast (F := binary64) (K := Rat) (by decide)
    (by decide) (by decide)

theorem one_add_atLeast {number : Double} (above : AtLeast 0 number) :
    AtLeast 1 (binary64.add (finite 1) number) := by
  have exact : binary64.round ((1 : Rat) + 0) = 1 + 0 := by
    rw [add_zero, round_one]
  simpa using add_atLeast exact (by norm_num) (.inr ⟨1, rfl, le_rfl⟩) above

/-- Only where both sums overflow is the index not a number. -/
theorem strength_between_iff {movement : PriceMovement}
    (heldGains : binary64.Holds movement.gains)
    (heldLosses : binary64.Holds movement.losses)
    (gainsAbove : AtLeast 0 movement.gains)
    (lossesAbove : AtLeast 0 movement.losses) {size : Rat}
    (counted : 1 ≤ size) :
    (∃ index, movement.strength (finite size) = some index ∧
        Between 0 100 index) ↔
      ¬ (movement.gains = infinite false ∧
        movement.losses = infinite false) := by
  obtain ⟨avgGain, gained, gainAbove, gainInfinite⟩ :=
    exists_average heldGains gainsAbove counted
  obtain ⟨avgLoss, lost, lossAbove, lossInfinite⟩ :=
    exists_average heldLosses lossesAbove counted
  unfold strength
  rw [gained, lost, ← gainInfinite, ← lossInfinite]
  simp only [Option.bind_eq_bind, Option.bind_some]
  split
  next zero =>
      refine iff_of_true ⟨finite 100, rfl, 100, rfl, by norm_num, le_rfl⟩ ?_
      rintro ⟨_, rfl⟩
      cases zero
  next nonzero =>
      by_cases both : avgGain = infinite false ∧ avgLoss = infinite false
      · obtain ⟨rfl, rfl⟩ := both
        refine iff_of_false ?_ (not_not_intro ⟨rfl, rfl⟩)
        rintro ⟨index, answered, value, rfl, _⟩
        cases answered
      · refine iff_of_true ?_ both
        obtain ⟨rs, divided, rsAbove⟩ := div_atLeast_zero (F := binary64)
          gainAbove lossAbove (Bool.eq_false_iff.mpr nonzero)
          (not_and.mp both)
        obtain ⟨quotient, divided', within⟩ := div_between ofExact_hundred
          (by norm_num) (one_add_atLeast rsAbove)
        rw [divided, Option.bind_some, divided', Option.bind_some]
        exact ⟨_, rfl, sub_between ofExact_hundred within⟩

theorem strength_addChanges_iff (prices : List Rat) {size : Rat}
    (counted : 1 ≤ size) :
    (∃ index, (addChanges ⟨finite 0, finite 0⟩ prices).strength (finite size) =
        some index ∧ Between 0 100 index) ↔ MovesInRange prices := by
  rw [addChanges_eq_totals]
  apply strength_between_iff (holds_total _) (holds_total _) _ _ counted
  · apply total_atLeast_zero
    exact List.forall_mem_map.mpr fun change _ => posPart_nonneg change
  · apply total_atLeast_zero
    exact List.forall_mem_map.mpr fun change _ => negPart_nonneg change

theorem strength_zero (movement : PriceMovement) :
    movement.strength (ofSize 0) = none := by
  have zero : ofSize 0 = finite 0 := ofExact_zero
  have undefined (number : Double) :
      binary64.div number (finite 0) = none := by
    rw [← Option.not_isSome_iff_eq_none, isSome_div]
    decide
  rw [strength, zero, undefined]
  rfl

end PriceMovement

section InRange

variable {prices : List Rat}

theorem movesInRange_of_single (single : prices.length ≤ 1) :
    MovesInRange prices := by
  have still : changes prices = [] := by
    rw [← List.length_eq_zero_iff, length_changes]
    omega
  rintro ⟨rises, _⟩
  rw [still] at rises
  cases rises

/-- The changes of 10000 prices of at most `2 ^ 1008` cannot overflow. -/
theorem movesInRange_of_small (few : prices.length ≤ maxHistorySize)
    (small : ∀ price ∈ prices, |price| ≤ 2 ^ (1008 : Int)) :
    MovesInRange prices := by
  have bound : (2 : Rat) ^ (1008 : Int) + 2 ^ (1008 : Int) =
      2 ^ (1009 : Int) := by
    rw [← two_mul, ← zpow_one_add₀ two_ne_zero]
    rfl
  have moved := abs_le_of_mem_changes small
  rw [bound] at moved
  have counted : (changes prices).length ≤ 2 ^ 14 := by
    rw [maxHistorySize] at few
    rw [length_changes]
    omega
  rintro ⟨rises, _⟩
  refine not_overflows (e := 1009) ?_ ?_ (by decide) ?_ rises
  · rw [List.forall_mem_map]
    intro change member
    exact ⟨posPart_nonneg change,
      (max_le (le_abs_self change) (abs_nonneg change)).trans
        (moved change member)⟩
  · rw [List.length_map]
    exact counted.trans (Nat.pow_le_pow_right two_pos (by decide))
  · rw [List.length_map]
    calc ((changes prices).length : Rat) * 2 ^ (1009 : Int) ≤
          2 ^ (14 : Int) * 2 ^ (1009 : Int) := by
          apply mul_le_mul_of_nonneg_right _ (zpow_pos two_pos _).le
          exact_mod_cast counted
      _ = 2 ^ (1023 : Int) := (zpow_add₀ two_ne_zero 14 1009).symm
      _ < 2 ^ binary64.maxExponent := zpow_lt_zpow_right₀ one_lt_two (by decide)

end InRange

end Double

end TradingBot
