import TradingBot.MarketData
import TradingBot.Library.Statistics
import TradingBot.Library.Variation

namespace TradingBot

open Library

/-! The indicators of `market_data.cpp`, with every `double` an exact rational.
Their rounding and overflow is in `Doubles`. -/

/-- A division of doubles; `none` where the divisor is zero. -/
def divide (dividend divisor : Rat) : Option Rat :=
  if divisor = 0 then none else some (dividend / divisor)

theorem divide_of_ne_zero {dividend divisor : Rat} (nonzero : divisor ≠ 0) :
    divide dividend divisor = some (dividend / divisor) :=
  if_neg nonzero

/-- The percentage change from the front to the back of a price vector. -/
def priceMomentum (prices : List Rat) : Option Rat :=
  if prices.length < 2 then some 0
  else do
    let change ← divide (prices.getLastD 0 - prices.headD 0) (prices.headD 0)
    return change * 100

theorem priceMomentum_eq {prices : List Rat} (enough : 2 ≤ prices.length)
    (priced : prices.headD 0 ≠ 0) :
    priceMomentum prices =
      some ((prices.getLastD 0 - prices.headD 0) / prices.headD 0 * 100) := by
  rw [priceMomentum, if_neg (Nat.not_lt.mpr enough), divide_of_ne_zero priced]
  rfl

/-- The `gains` and `losses` of `calculateRSI`. -/
structure PriceMovement where
  gains : Rat
  losses : Rat
  deriving DecidableEq

namespace PriceMovement

def addChange (movement : PriceMovement) (change : Rat) : PriceMovement :=
  if 0 < change then { movement with gains := movement.gains + change }
  else { movement with losses := movement.losses + -change }

/-- The loop over adjacent ticks. -/
def addChanges (movement : PriceMovement) : List Rat → PriceMovement
  | previous :: price :: rest =>
      (movement.addChange (price - previous)).addChanges (price :: rest)
  | _ => movement

theorem addChange_eq (movement : PriceMovement) (change : Rat) :
    movement.addChange change =
      { gains := movement.gains + change⁺
        losses := movement.losses + change⁻ } := by
  unfold addChange
  split
  next gain =>
      rw [posPart_eq_self.mpr gain.le, negPart_eq_zero.mpr gain.le, add_zero]
  next loss =>
      have below : change ≤ 0 := not_lt.mp loss
      rw [posPart_eq_zero.mpr below, negPart_eq_neg.mpr below, add_zero]

theorem addChanges_eq (movement : PriceMovement) (prices : List Rat) :
    movement.addChanges prices =
      { gains := movement.gains + rise prices
        losses := movement.losses + fall prices } := by
  induction movement, prices using addChanges.induct with
  | case1 movement previous price rest induction =>
      rw [addChanges, induction, addChange_eq, rise_cons_cons, fall_cons_cons,
        add_assoc, add_assoc]
  | case2 prices movement few =>
      have still : changes prices = [] := by
        rw [changes]
        exact few
      rw [addChanges, rise, fall, still, List.map_nil, List.map_nil,
        List.sum_nil, add_zero, add_zero]
      exact few

end PriceMovement

namespace MarketDataHandler

def recentPrices (handler : MarketDataHandler) (symbol : String)
    (limit : UInt64) : List Rat :=
  (handler.getTickHistory symbol limit.toNat).map MarketTick.lastPrice

/-- The `variance` whose square root `calculateVolatility` returns. -/
def volatilityVariance (handler : MarketDataHandler) (symbol : String)
    (window : UInt64) : Option Rat :=
  let prices := handler.recentPrices symbol window
  if prices.length < 2 then some 0
  else do
    let mean ← divide prices.sum prices.length
    divide (squaredDeviation mean prices) prices.length

def calculateMomentum (handler : MarketDataHandler) (symbol : String)
    (period : UInt64) : Option Rat :=
  priceMomentum (handler.recentPrices symbol period)

/-- `period + 1` wraps. -/
def calculateRSI (handler : MarketDataHandler) (symbol : String)
    (period : UInt64) : Option Rat :=
  let prices := handler.recentPrices symbol (period + 1)
  if prices.length < (period + 1).toNat then some 50
  else do
    let movement := PriceMovement.addChanges ⟨0, 0⟩ prices
    let avgGain ← divide movement.gains period.toNat
    let avgLoss ← divide movement.losses period.toNat
    if avgLoss = 0 then return 100
    else
      let rs ← divide avgGain avgLoss
      let quotient ← divide 100 (1 + rs)
      return 100 - quotient

theorem hundred_sub_eq_share {up down period : Rat} (upward : 0 ≤ up)
    (falls : 0 < down) (counted : 0 < period) :
    100 - 100 / (1 + up / period / (down / period)) =
      100 * upwardShare up down := by
  have moves : up + down ≠ 0 := (add_pos_of_nonneg_of_pos upward falls).ne'
  rw [div_div_div_cancel_right₀ counted.ne', upwardShare, if_neg falls.ne']
  field_simp
  ring

theorem calculateRSI_eq (handler : MarketDataHandler) (symbol : String)
    {period : UInt64} (counted : period ≠ 0) :
    handler.calculateRSI symbol period =
      let prices := handler.recentPrices symbol (period + 1)
      if prices.length < (period + 1).toNat then some 50
      else some (100 * upwardShare (rise prices) (fall prices)) := by
  have divisor : (0 : Rat) < period.toNat := by
    rw [Nat.cast_pos, Nat.pos_iff_ne_zero]
    exact fun zero => counted (UInt64.toNat_inj.mp zero)
  unfold calculateRSI
  dsimp only
  generalize handler.recentPrices symbol (period + 1) = prices
  split
  next => rfl
  next =>
      rw [PriceMovement.addChanges_eq, zero_add, zero_add,
        divide_of_ne_zero divisor.ne', divide_of_ne_zero divisor.ne']
      simp only [Option.bind_eq_bind, Option.bind_some]
      rcases (fall_nonneg prices).eq_or_lt with still | falls
      · rw [← still, zero_div, if_pos rfl, upwardShare, if_pos rfl, mul_one]
        rfl
      · have loss : fall prices / period.toNat ≠ 0 :=
          (div_pos falls divisor).ne'
        have ratio : 0 ≤ rise prices / period.toNat /
            (fall prices / period.toNat) :=
          div_nonneg (div_nonneg (rise_nonneg prices) divisor.le)
            (div_pos falls divisor).le
        rw [if_neg loss, divide_of_ne_zero loss, Option.bind_some,
          divide_of_ne_zero (add_pos_of_pos_of_nonneg one_pos ratio).ne',
          Option.bind_some,
          ← hundred_sub_eq_share (rise_nonneg prices) falls divisor]
        rfl

theorem volatilityVariance_eq (handler : MarketDataHandler) (symbol : String)
    (window : UInt64) :
    handler.volatilityVariance symbol window =
      some (variance (handler.recentPrices symbol window)) := by
  unfold volatilityVariance
  dsimp only
  generalize handler.recentPrices symbol window = prices
  split
  next few =>
      match prices, few with
      | [], _ => simp [variance]
      | [price], _ => simp [variance, mean, squaredDeviation]
  next enough =>
      have counted : (prices.length : Rat) ≠ 0 :=
        Nat.cast_ne_zero.mpr (by omega)
      rw [divide_of_ne_zero counted, Option.bind_eq_bind, Option.bind_some,
        divide_of_ne_zero counted]
      rfl

end MarketDataHandler

end TradingBot
