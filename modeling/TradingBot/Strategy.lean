import TradingBot.MarketData.Feed
import TradingBot.MarketData.Indicators

namespace TradingBot

open Library

/-! The two strategies of `trading_strategy.cpp` that compute indicators.
`onOrderBook` is empty in both. -/

structure MeanReversionStrategy where
  symbol : String
  period : UInt64
  threshold : Rat
  prices : List Rat

structure MomentumStrategy where
  symbol : String
  lookback : UInt64
  sensitivity : Rat
  prices : List Rat

namespace MeanReversionStrategy

def new (symbol : String) (period : UInt64) (threshold : Rat) :
    MeanReversionStrategy where
  symbol := symbol
  period := period
  threshold := threshold
  prices := []

def onTick (strategy : MeanReversionStrategy) (tick : MarketTick) :
    MeanReversionStrategy :=
  { strategy with prices := strategy.prices ++ [tick.lastPrice] }

def onNotice (strategy : MeanReversionStrategy) :
    Notice → MeanReversionStrategy
  | .onTick tick => strategy.onTick tick
  | .onOrderBook _ => strategy

def calculateSMA (strategy : MeanReversionStrategy) : Option Rat :=
  if strategy.prices = [] then some 0
  else divide strategy.prices.sum strategy.prices.length

/-- What `calculateStdDev` takes the square root of; 0 where it returns
early. -/
def stdDevVariance (strategy : MeanReversionStrategy) : Option Rat :=
  if strategy.prices = [] then some 0
  else do
    let mean ← strategy.calculateSMA
    divide (squaredDeviation mean strategy.prices) strategy.prices.length

theorem stdDevVariance_eq (strategy : MeanReversionStrategy) :
    strategy.stdDevVariance = some (variance strategy.prices) := by
  unfold stdDevVariance
  split
  next empty => simp [empty, variance]
  next nonempty =>
      have counted : (strategy.prices.length : Rat) ≠ 0 :=
        Nat.cast_ne_zero.mpr (List.length_pos_iff.mpr nonempty).ne'
      rw [calculateSMA, if_neg nonempty, divide_of_ne_zero counted,
        Option.bind_eq_bind, Option.bind_some, divide_of_ne_zero counted]
      rfl

end MeanReversionStrategy

namespace MomentumStrategy

def new (symbol : String) (lookback : UInt64) (sensitivity : Rat) :
    MomentumStrategy where
  symbol := symbol
  lookback := lookback
  sensitivity := sensitivity
  prices := []

def onTick (strategy : MomentumStrategy) (tick : MarketTick) :
    MomentumStrategy :=
  { strategy with prices := strategy.prices ++ [tick.lastPrice] }

def onNotice (strategy : MomentumStrategy) : Notice → MomentumStrategy
  | .onTick tick => strategy.onTick tick
  | .onOrderBook _ => strategy

def calculateMomentum (strategy : MomentumStrategy) : Option Rat :=
  priceMomentum strategy.prices

end MomentumStrategy

/-- The prices of the ticks a listener is called with. -/
def noticedPrices (notices : List Notice) : List Rat :=
  notices.filterMap fun notice => notice.tick?.map MarketTick.lastPrice

theorem prices_foldl {Strategy : Type}
    {onNotice : Strategy → Notice → Strategy} {prices : Strategy → List Rat}
    (pushes : ∀ strategy notice, prices (onNotice strategy notice) =
      prices strategy ++ (notice.tick?.map MarketTick.lastPrice).toList)
    (strategy : Strategy) (notices : List Notice) :
    prices (notices.foldl onNotice strategy) =
      prices strategy ++ noticedPrices notices := by
  induction notices generalizing strategy with
  | nil => simp [noticedPrices]
  | cons notice rest induction =>
      rw [List.foldl_cons, induction, pushes, noticedPrices, noticedPrices,
        List.filterMap_cons, List.append_assoc]
      cases notice.tick?.map MarketTick.lastPrice <;> rfl

theorem MeanReversionStrategy.pushes (strategy : MeanReversionStrategy)
    (notice : Notice) :
    (strategy.onNotice notice).prices =
      strategy.prices ++ (notice.tick?.map MarketTick.lastPrice).toList := by
  cases notice <;> simp [onNotice, onTick, Notice.tick?]

theorem MomentumStrategy.pushes (strategy : MomentumStrategy)
    (notice : Notice) :
    (strategy.onNotice notice).prices =
      strategy.prices ++ (notice.tick?.map MarketTick.lastPrice).toList := by
  cases notice <;> simp [onNotice, onTick, Notice.tick?]

end TradingBot
