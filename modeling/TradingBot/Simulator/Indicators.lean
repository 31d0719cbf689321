import TradingBot.Simulator
import TradingBot.MarketData.StrengthIndex
import TradingBot.Library.Dispersion
import Mathlib.Algebra.Order.Group.MinMax

namespace TradingBot

open Library

/-! The volatility and the momentum of `market_data.cpp` over the prices that
`simulateMarketData` publishes. -/

namespace MarketSimulator

def publishedPrices (basePrice : Rat) (rounds : List Round) : List Rat :=
  (publications basePrice rounds).map fun published => published.1.lastPrice

theorem length_publishedPrices (basePrice : Rat) (rounds : List Round) :
    (publishedPrices basePrice rounds).length = rounds.length := by
  rw [publishedPrices, List.length_map, length_publications]

theorem publishedPrices_cons (basePrice : Rat) (first : Round)
    (rest : List Round) :
    publishedPrices basePrice (first :: rest) =
      max (basePrice + first.draws.priceChange) 50 ::
        publishedPrices (max (basePrice + first.draws.priceChange) 50) rest :=
  rfl

theorem floor_le_publishedPrices {basePrice price : Rat} {rounds : List Round}
    (published : price ∈ publishedPrices basePrice rounds) : 50 ≤ price := by
  induction rounds generalizing basePrice with
  | nil => cases published
  | cons first rest induction =>
      rw [publishedPrices_cons] at published
      rcases List.mem_cons.mp published with rfl | later
      · exact le_max_right _ _
      · exact induction later

/-- The floor does not matter to what holds of every move above it. -/
theorem forall_changes_publishedPrices {property : Rat → Prop}
    {basePrice : Rat} {rounds : List Round}
    (moves : ∀ round ∈ rounds, ∀ price, 50 ≤ price →
      property (max (price + round.draws.priceChange) 50 - price))
    (floor : 50 ≤ basePrice) :
    ∀ change ∈ Library.changes (basePrice :: publishedPrices basePrice rounds),
      property change := by
  induction rounds generalizing basePrice with
  | nil => exact fun change member => by cases member
  | cons first rest induction =>
      intro change member
      rw [publishedPrices_cons, Library.changes] at member
      rcases List.mem_cons.mp member with rfl | later
      · exact moves first List.mem_cons_self basePrice floor
      · exact induction
          (fun round listed => moves round (List.mem_cons_of_mem _ listed))
          (le_max_right _ _) change later

theorem abs_move_le {price step : Rat} (floor : 50 ≤ price) :
    |max (price + step) 50 - price| ≤ |step| := by
  have nearer := abs_max_sub_max_le_abs (price + step) price 50
  rwa [max_eq_left floor, add_sub_cancel_left] at nearer

section Stored

variable (expired : ListenerId → Bool) (handler : MarketDataHandler)
  (rounds : List Round)

/-- The handler that the loop leaves. -/
def simulatedHandler : MarketDataHandler :=
  (simulateMarketData expired init handler rounds).2

variable {handler} {listeners : List ListenerId}
  (subscribed : handler.symbolDataMap["AAPL"]? =
    some { tickHistory := [], orderBookHistory := [], listeners })

include subscribed

theorem storedPrices_simulatedHandler :
    (simulatedHandler expired handler rounds).storedPrices "AAPL" =
      publishedPrices 100 (rounds.take maxTicks) := by
  obtain ⟨_, _, stored⟩ := simulateMarketData_data expired init rounds
    subscribed rfl rfl
  rw [simulatedHandler, MarketDataHandler.storedPrices, stored,
    Option.elim_some, publishedPrices]
  simp [init]

theorem length_recentPrices_simulatedHandler (window : UInt64) :
    ((simulatedHandler expired handler rounds).recentPrices "AAPL"
      window).length = min window.toNat (min maxTicks rounds.length) := by
  rw [MarketDataHandler.recentPrices_eq,
    storedPrices_simulatedHandler expired rounds subscribed, length_rtake,
    length_publishedPrices, List.length_take]

theorem forall_changes_recentPrices (property : Rat → Prop)
    (moves : ∀ round ∈ rounds, ∀ price, 50 ≤ price →
      property (max (price + round.draws.priceChange) 50 - price))
    (window : UInt64) :
    ∀ change ∈ Library.changes
        ((simulatedHandler expired handler rounds).recentPrices "AAPL" window),
      property change := by
  rw [MarketDataHandler.recentPrices_eq,
    storedPrices_simulatedHandler expired rounds subscribed, List.rtake]
  refine forall_changes_drop (forall_changes_tail
    (forall_changes_publishedPrices ?_ (by norm_num : (50 : Rat) ≤ 100))) _
  exact fun round listed => moves round (List.mem_of_mem_take listed)

theorem floor_le_recentPrices {window : UInt64} {price : Rat}
    (listed : price ∈ (simulatedHandler expired handler rounds).recentPrices
      "AAPL" window) : 50 ≤ price := by
  rw [MarketDataHandler.recentPrices_eq,
    storedPrices_simulatedHandler expired rounds subscribed] at listed
  exact floor_le_publishedPrices (List.mem_of_mem_drop listed)

end Stored

/-- The variance is at most that of a straight path with moves of the size, and
the momentum at most that of as many moves away from the floor. -/
structure IndicatorsBounded (handler : MarketDataHandler) (window : UInt64)
    (held : Nat) (size : Rat) : Prop where
  volatility : ∃ variance,
    handler.volatilityVariance "AAPL" window = some variance ∧
      0 ≤ variance ∧ 12 * variance ≤ size ^ 2 * ((held ^ 2 - 1 : Nat) : Rat)
  momentum : ∃ momentum,
    handler.calculateMomentum "AAPL" window = some momentum ∧
      |momentum| ≤ 2 * ((held - 1 : Nat) * size)

theorem abs_priceMomentum_le {prices : List Rat} {size : Rat}
    (steps : ∀ change ∈ Library.changes prices, |change| ≤ size)
    (floor : ∀ price ∈ prices, 50 ≤ price) :
    ∃ momentum, priceMomentum prices = some momentum ∧
      |momentum| ≤ 2 * ((prices.length - 1 : Nat) * size) := by
  rcases Nat.lt_or_ge prices.length 2 with few | enough
  · refine ⟨0, by rw [priceMomentum, if_pos few], ?_⟩
    have none : prices.length - 1 = 0 := by omega
    rw [none, abs_zero, Nat.cast_zero, zero_mul, mul_zero]
  · cases prices with
    | nil => simp at enough
    | cons first rest =>
        have priced : 50 ≤ first := floor first List.mem_cons_self
        have positive : 0 < first := by linarith
        have moved : |rest.getLastD first - first| ≤ rest.length * size :=
          abs_getLastD_sub_le steps
        refine ⟨_, priceMomentum_eq enough positive.ne', ?_⟩
        rw [List.getLastD_cons, List.headD_cons, List.length_cons,
          Nat.add_sub_cancel, abs_mul, abs_div, abs_of_pos positive,
          abs_of_pos (by norm_num : (0 : Rat) < 100)]
        have share : |rest.getLastD first - first| / first ≤
            rest.length * size / 50 :=
          div_le_div₀ ((abs_nonneg _).trans moved) moved (by norm_num) priced
        linarith

section Bounds

variable (expired : ListenerId → Bool) {handler : MarketDataHandler}
  (rounds : List Round) {listeners : List ListenerId}

/-- After any rounds whose draws are at most of a size, over every window: the
bounds that the draws alone give, and the variance reached where the price
rises by that size every time. -/
theorem indicators_bounded
    (subscribed : handler.symbolDataMap["AAPL"]? =
      some { tickHistory := [], orderBookHistory := [], listeners })
    {size : Rat} (moves : ∀ round ∈ rounds, |round.draws.priceChange| ≤ size)
    (window : UInt64) :
    let held := min window.toNat (min maxTicks rounds.length)
    IndicatorsBounded (simulatedHandler expired handler rounds) window held
        size ∧
      ((∀ round ∈ rounds, round.draws.priceChange = size) →
        ∃ variance,
          (simulatedHandler expired handler rounds).volatilityVariance "AAPL"
              window = some variance ∧
            12 * variance = size ^ 2 * ((held ^ 2 - 1 : Nat) : Rat)) := by
  intro held
  have length : _ = held :=
    length_recentPrices_simulatedHandler expired rounds subscribed window
  have answered := (simulatedHandler expired handler rounds).volatilityVariance_eq
    "AAPL" window
  have steps := forall_changes_recentPrices expired rounds subscribed
    (fun change => |change| ≤ size)
    (fun round listed price floor =>
      (abs_move_le floor).trans (moves round listed)) window
  refine ⟨⟨⟨_, answered, variance_nonneg _, ?_⟩, ?_⟩, fun rising => ?_⟩
  · rw [← length]
    exact variance_le_of_steps steps
  · rw [← length]
    exact abs_priceMomentum_le steps fun price listed =>
      floor_le_recentPrices expired rounds subscribed listed
  · refine ⟨_, answered, ?_⟩
    rw [← length]
    apply variance_of_steady
    apply forall_changes_recentPrices expired rounds subscribed
      fun change => change = size
    intro round listed price floor
    have upward : 0 ≤ size := (abs_nonneg _).trans (moves round listed)
    rw [rising round listed, max_eq_left (by linarith), add_sub_cancel_left]

end Bounds

private def climbingRound : Round where
  draws :=
    { priceChange := 1, bidVolume := 100, askVolume := 200,
      bidDepth := (100, 200), askDepth := (300, 400) }
  timestamp := default

theorem indicators_bounded_climbing :
    let rounds := [climbingRound, climbingRound, climbingRound]
    let handler := simulatedHandler (fun _ => false)
      (MarketDataHandler.init.subscribe "AAPL" 0) rounds
    IndicatorsBounded handler 2 2 1 ∧
      ((∀ round ∈ rounds, round.draws.priceChange = 1) →
        ∃ variance, handler.volatilityVariance "AAPL" 2 = some variance ∧
          12 * variance = 1 ^ 2 * ((2 ^ 2 - 1 : Nat) : Rat)) :=
  indicators_bounded (fun _ => false)
    [climbingRound, climbingRound, climbingRound] (subscribe_init_data 0)
    (by simp [climbingRound]) 2

end MarketSimulator

end TradingBot
