import TradingBot.MarketData.Doubles

namespace TradingBot

open Library Floating

/-! The length checks of the indicators against what they divide by, in the
arithmetic of `double` and for every window and period that a `size_t`
holds. -/

/-- `calculateRSI` divides by nothing that is zero, keeps to its range, and is
neutral while the ticks are too few. -/
structure RsiSafe (handler : MarketDataHandler) (symbol : String)
    (period : UInt64) : Prop where
  inRange : ∃ index, Double.calculateRSI handler symbol period = some index ∧
    Between 0 100 index
  neutral : (handler.storedPrices symbol).length < period.toNat + 1 →
    Double.calculateRSI handler symbol period = some (finite 50)

structure IndicatorsSafe (handler : MarketDataHandler) (symbol : String)
    (window momentumPeriod rsiPeriod : UInt64) : Prop where
  volatility :
    (Double.volatilityVariance handler symbol window).isSome = true
  momentum :
    (Double.calculateMomentum handler symbol momentumPeriod).isSome = true
  rsi : RsiSafe handler symbol rsiPeriod

def publishedPrices (events : List MarketEvent) (symbol : String) : List Rat :=
  (ticksOf events symbol).map MarketTick.lastPrice

/-- What the guards leave to the caller: a momentum window that does not start
with the price 0, no RSI period of 0 or of the largest `size_t`, and prices
whose moves do not overflow both ways. -/
structure WithinGuards (momentumPeriod rsiPeriod : UInt64)
    (prices : List Rat) : Prop where
  priced : 2 ≤ momentumPeriod.toNat → 2 ≤ prices.length →
    (prices.rtake (min momentumPeriod.toNat maxHistorySize)).headD 0 ≠ 0
  counted : rsiPeriod = 0 → prices = []
  bounded : rsiPeriod.toNat ≠ 2 ^ 64 - 1
  summed : rsiPeriod.toNat + 1 ≤ min prices.length maxHistorySize →
    Double.MovesInRange (prices.rtake (rsiPeriod.toNat + 1))

/-- Prices of at most `2 ^ 1008` leave nothing to check but the arguments. -/
theorem WithinGuards.of_small {momentumPeriod rsiPeriod : UInt64}
    {prices : List Rat}
    (priced : 2 ≤ momentumPeriod.toNat → 2 ≤ prices.length →
      (prices.rtake (min momentumPeriod.toNat maxHistorySize)).headD 0 ≠ 0)
    (counted : rsiPeriod = 0 → prices = [])
    (bounded : rsiPeriod.toNat ≠ 2 ^ 64 - 1)
    (small : ∀ price ∈ prices, |price| ≤ 2 ^ (1008 : Int)) :
    WithinGuards momentumPeriod rsiPeriod prices := by
  refine ⟨priced, counted, bounded, fun enough => ?_⟩
  apply Double.movesInRange_of_small
  · rw [length_rtake]
    omega
  · intro price member
    exact small price (List.mem_of_mem_drop member)

namespace Double

variable (handler : MarketDataHandler) (symbol : String)

theorem calculateRSI_eq_strength {period : UInt64}
    (bounded : period.toNat < 2 ^ 64 - 1) :
    calculateRSI handler symbol period =
      if (handler.storedPrices symbol).length < period.toNat + 1 then
        some (finite 50)
      else
        (PriceMovement.addChanges ⟨finite 0, finite 0⟩
          (handler.changeWindow symbol period)).strength
          (ofSize period.toNat) := by
  unfold calculateRSI
  rw [MarketDataHandler.recentPrices_succ handler symbol bounded,
    MarketDataHandler.toNat_succ bounded]
  simp only [MarketDataHandler.length_changeWindow_lt]

/-- `period + 1` wraps to 0, no tick is asked for, and none moves. -/
theorem calculateRSI_last {period : UInt64}
    (last : period.toNat = 2 ^ 64 - 1) :
    calculateRSI handler symbol period = some (finite 100) := by
  have wrapped : period + 1 = 0 := by
    rw [← UInt64.toNat_inj, UInt64.toNat_add, last]
    rfl
  have none : handler.recentPrices symbol 0 = [] := by
    rw [MarketDataHandler.recentPrices_eq, UInt64.toNat_zero, List.rtake_zero]
  have zero : (0 : UInt64).toNat = 0 := rfl
  rw [calculateRSI, wrapped, none, last, zero]
  decide +kernel

theorem rsiSafe_of_neutral {handler : MarketDataHandler} {symbol : String}
    {period : UInt64}
    (neutral : calculateRSI handler symbol period = some (finite 50)) :
    RsiSafe handler symbol period :=
  ⟨⟨_, neutral, 50, rfl, by norm_num, by norm_num⟩, fun _ => neutral⟩

/-- A period of 0 counts no change, and divides by the 0 given. -/
theorem rsiSafe_zero :
    RsiSafe handler symbol 0 ↔ handler.storedPrices symbol = [] := by
  have index := calculateRSI_eq_strength handler symbol
    (show (0 : UInt64).toNat < 2 ^ 64 - 1 by decide)
  have few : (handler.storedPrices symbol).length < 1 ↔
      handler.storedPrices symbol = [] := by
    rw [← List.length_eq_zero_iff]
    omega
  rw [UInt64.toNat_zero, PriceMovement.strength_zero] at index
  simp only [zero_add, few] at index
  constructor
  · intro safe
    obtain ⟨_, answered, _⟩ := safe.inRange
    rw [index] at answered
    exact (Option.ite_none_right_eq_some.mp answered).1
  · intro empty
    rw [if_pos empty] at index
    exact rsiSafe_of_neutral index

theorem rsiSafe_of_between {period : UInt64} (nonzero : period ≠ 0)
    (bounded : period.toNat < 2 ^ 64 - 1) :
    RsiSafe handler symbol period ↔
      (period.toNat + 1 ≤ (handler.storedPrices symbol).length →
        MovesInRange (handler.changeWindow symbol period)) := by
  have index := calculateRSI_eq_strength handler symbol bounded
  rcases Nat.lt_or_ge (handler.storedPrices symbol).length
    (period.toNat + 1) with few | enough
  · rw [if_pos few] at index
    exact iff_of_true (rsiSafe_of_neutral index) fun enough =>
      absurd enough (Nat.not_le.mpr few)
  · obtain ⟨size, sized, counted⟩ := ofSize_atLeast
      (Nat.pos_of_ne_zero fun zero => nonzero (UInt64.toNat_inj.mp zero))
      period.toNat_lt.le
    rw [if_neg (Nat.not_lt.mpr enough), sized] at index
    have inRange := PriceMovement.strength_addChanges_iff
      (handler.changeWindow symbol period) counted
    rw [← index] at inRange
    constructor
    · exact fun safe _ => inRange.mp safe.inRange
    · intro moves
      exact ⟨inRange.mpr (moves enough),
        fun few => absurd few (Nat.not_lt.mpr enough)⟩

theorem rsiSafe_iff {period : UInt64}
    (stored : (handler.storedPrices symbol).length < 2 ^ 64) :
    RsiSafe handler symbol period ↔
      (period = 0 → handler.storedPrices symbol = []) ∧
        period.toNat ≠ 2 ^ 64 - 1 ∧
        (period.toNat + 1 ≤ (handler.storedPrices symbol).length →
          MovesInRange (handler.changeWindow symbol period)) := by
  have range := period.toNat_lt
  rcases eq_or_ne period 0 with rfl | nonzero
  · have single : MovesInRange (handler.changeWindow symbol 0) := by
      apply movesInRange_of_single
      rw [MarketDataHandler.changeWindow, length_rtake]
      exact min_le_left _ _
    simp [rsiSafe_zero, single]
  · rcases eq_or_ne period.toNat (2 ^ 64 - 1) with last | inside
    · have broken : ¬ RsiSafe handler symbol period := by
        intro safe
        have neutral := safe.neutral (by omega)
        rw [calculateRSI_last handler symbol last] at neutral
        revert neutral
        decide
      simp [broken, last]
    · rw [rsiSafe_of_between handler symbol nonzero (by omega)]
      exact ⟨fun moves => ⟨fun zero => absurd zero nonzero, inside, moves⟩,
        fun guarded => guarded.2.2⟩

end Double

theorem storedPrices_after (events : List MarketEvent) (symbol : String) :
    (Market.after events).handler.storedPrices symbol =
      (publishedPrices events symbol).rtake maxHistorySize := by
  have stored := (Market.records events symbol).tickHistory
  rw [Market.data] at stored
  rw [MarketDataHandler.storedPrices, stored, map_rtake, publishedPrices]

theorem volatilityVariance_isSome (handler : MarketDataHandler)
    (symbol : String) (window : UInt64)
    (few : (handler.storedPrices symbol).length ≤ 2 ^ 64) :
    (Double.volatilityVariance handler symbol window).isSome = true := by
  apply Double.isSome_priceVariance
  rw [MarketDataHandler.recentPrices_eq, length_rtake]
  omega

theorem calculateMomentum_isSome_iff (events : List MarketEvent)
    (symbol : String) (period : UInt64) :
    (Double.calculateMomentum (Market.after events).handler symbol
        period).isSome = true ↔
      (2 ≤ period.toNat → 2 ≤ (publishedPrices events symbol).length →
        ((publishedPrices events symbol).rtake
          (min period.toNat maxHistorySize)).headD 0 ≠ 0) := by
  have enough : 2 ≤ min (min period.toNat maxHistorySize)
      (publishedPrices events symbol).length ↔
      2 ≤ period.toNat ∧ 2 ≤ (publishedPrices events symbol).length := by
    rw [maxHistorySize]
    omega
  rw [Double.calculateMomentum, Double.isSome_priceMomentum,
    MarketDataHandler.recentPrices_eq, storedPrices_after, rtake_rtake,
    length_rtake, enough, and_imp]

theorem indicatorsSafe_iff (events : List MarketEvent) (symbol : String)
    (window momentumPeriod rsiPeriod : UInt64) :
    IndicatorsSafe (Market.after events).handler symbol window momentumPeriod
        rsiPeriod ↔
      WithinGuards momentumPeriod rsiPeriod
        (publishedPrices events symbol) := by
  have momentum := calculateMomentum_isSome_iff events symbol momentumPeriod
  have stored : ((Market.after events).handler.storedPrices symbol).length =
      min maxHistorySize (publishedPrices events symbol).length := by
    rw [storedPrices_after, length_rtake]
  have few : ((Market.after events).handler.storedPrices symbol).length <
      2 ^ 64 := by
    rw [stored, maxHistorySize]
    omega
  have rsi : RsiSafe (Market.after events).handler symbol rsiPeriod ↔ _ :=
    Double.rsiSafe_iff _ symbol few
  have empty : (Market.after events).handler.storedPrices symbol = [] ↔
      publishedPrices events symbol = [] := by
    rw [← List.length_eq_zero_iff, stored, ← List.length_eq_zero_iff,
      maxHistorySize]
    omega
  have moves : (rsiPeriod.toNat + 1 ≤
        ((Market.after events).handler.storedPrices symbol).length →
      Double.MovesInRange
        ((Market.after events).handler.changeWindow symbol rsiPeriod)) ↔
      (rsiPeriod.toNat + 1 ≤
        min (publishedPrices events symbol).length maxHistorySize →
      Double.MovesInRange
        ((publishedPrices events symbol).rtake (rsiPeriod.toNat + 1))) := by
    rw [stored, min_comm maxHistorySize]
    refine imp_congr_right fun enough => ?_
    rw [MarketDataHandler.changeWindow, storedPrices_after, rtake_rtake,
      min_eq_left (enough.trans (min_le_right _ _))]
  rw [empty, moves] at rsi
  constructor
  · intro safe
    obtain ⟨counted, bounded, summed⟩ := rsi.mp safe.rsi
    exact ⟨momentum.mp safe.momentum, counted, bounded, summed⟩
  · intro within
    exact ⟨volatilityVariance_isSome _ symbol window few.le,
      momentum.mpr within.priced,
      rsi.mpr ⟨within.counted, within.bounded, within.summed⟩⟩

/-- The indicators are safe in every state of a run exactly if every state
leaves to them only what their guards allow. -/
theorem indicators_safe_throughout_iff (events : List MarketEvent)
    (symbol : String) (window momentumPeriod rsiPeriod : UInt64) :
    EveryPrefix (fun earlier =>
        IndicatorsSafe (Market.after earlier).handler symbol window
          momentumPeriod rsiPeriod) events ↔
      EveryPrefix (fun earlier =>
        WithinGuards momentumPeriod rsiPeriod
          (publishedPrices earlier symbol)) events := by
  constructor
  · intro safe earlier later split
    exact (indicatorsSafe_iff earlier symbol window _ _).mp
      (safe earlier later split)
  · intro within earlier later split
    exact (indicatorsSafe_iff earlier symbol window _ _).mpr
      (within earlier later split)

private def publishedAt (prices : List Rat) : List MarketEvent :=
  .subscribe "AAPL" 0 :: prices.map fun lastPrice =>
    .publishTick { (default : MarketTick) with symbol := "AAPL", lastPrice }

/-- With one tick stored a period of 0 divides 0 by 0, the largest period
answers 100 and not 50, a first price of 0 is the momentum's divisor, and the
moves between prices near the largest double overflow both ways. -/
theorem arguments_slip_through_guards :
    ¬ IndicatorsSafe (Market.after (publishedAt [100])).handler "AAPL" 2 2 0 ∧
    ¬ IndicatorsSafe (Market.after (publishedAt [100])).handler "AAPL" 2 2
      18446744073709551615 ∧
    ¬ IndicatorsSafe (Market.after (publishedAt [0, 100])).handler "AAPL" 2 2
      14 ∧
    ¬ IndicatorsSafe (Market.after (publishedAt
      [2 ^ 1023, -2 ^ 1023, 2 ^ 1023])).handler "AAPL" 2 2 2 := by
  refine ⟨?_, ?_, ?_, ?_⟩
  · intro safe
    obtain ⟨index, answered, _⟩ := safe.rsi.inRange
    have undefined : Double.calculateRSI
        (Market.after (publishedAt [100])).handler "AAPL" 0 = none := by
      decide +kernel
    rw [undefined] at answered
    cases answered
  · intro safe
    have neutral := safe.rsi.neutral (by decide +kernel)
    revert neutral
    decide +kernel
  · intro safe
    have momentum := safe.momentum
    revert momentum
    decide +kernel
  · intro safe
    obtain ⟨index, answered, within⟩ := safe.rsi.inRange
    have overflown : Double.calculateRSI (Market.after (publishedAt
        [2 ^ 1023, -2 ^ 1023, 2 ^ 1023])).handler "AAPL" 2 = some nan := by
      decide +kernel
    rw [overflown, Option.some_inj] at answered
    obtain ⟨value, rfl, _⟩ := within
    cases answered

end TradingBot
