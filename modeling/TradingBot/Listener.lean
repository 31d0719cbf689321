import TradingBot.MarketData

namespace TradingBot

/-! `DemoStrategyListener` of `main.cpp`. -/

def signalOrder (symbol : String) (side : OrderSide) (price : Rat) : Order where
  orderId := 0
  symbol := symbol
  side := side
  orderType := .limit
  price := price
  quantity := 100
  filledQuantity := 0
  status := .pending
  createdAt := default
  filledAt := default
  commission := 0
  clientOrderId := ""

def requestFor (orderId : UInt64) (order : Order) (timestamp : Timestamp) :
    ExecutionRequest where
  orderId := orderId
  symbol := order.symbol
  side := order.side
  price := order.price
  quantity := order.quantity
  priority := .high
  timestamp := timestamp

/-- The function-local `static double lastPrice` and the member
`tradeCount`. -/
structure DemoStrategyListener where
  lastPrice : Rat
  tradeCount : Nat

namespace DemoStrategyListener

def init : DemoStrategyListener where
  lastPrice := 0
  tradeCount := 0

def maxTrades : Nat := 5

/-- The order `onTick` places for a tick, if the tick is a signal. -/
def signal (listener : DemoStrategyListener) (tick : MarketTick) :
    Option Order :=
  if 0 < listener.lastPrice ∧ listener.tradeCount < maxTrades then
    let priceDelta := tick.lastPrice - listener.lastPrice
    if 1 / 10 < priceDelta then
      some (signalOrder tick.symbol .buy tick.bid)
    else if priceDelta < -(1 / 10) then
      some (signalOrder tick.symbol .sell tick.ask)
    else none
  else none

def afterTick (listener : DemoStrategyListener) (tick : MarketTick) :
    DemoStrategyListener where
  lastPrice := tick.lastPrice
  tradeCount :=
    if (listener.signal tick).isSome then listener.tradeCount + 1
    else listener.tradeCount

variable {listener : DemoStrategyListener} {tick : MarketTick} {order : Order}

theorem signal_eq_some (signalled : listener.signal tick = some order) :
    listener.tradeCount < maxTrades ∧
      (order = signalOrder tick.symbol .buy tick.bid ∨
        order = signalOrder tick.symbol .sell tick.ask) := by
  unfold signal at signalled
  split at signalled
  next enabled =>
      refine ⟨enabled.2, ?_⟩
      dsimp only at signalled
      split at signalled
      · exact .inl (Option.some.inj signalled).symm
      · split at signalled
        · exact .inr (Option.some.inj signalled).symm
        · contradiction
  next => contradiction

theorem afterTick_tradeCount_le
    (capped : listener.tradeCount ≤ maxTrades) :
    (listener.afterTick tick).tradeCount ≤ maxTrades := by
  unfold afterTick
  cases signalled : listener.signal tick with
  | none => simpa using capped
  | some order =>
      simpa using Nat.succ_le_of_lt (signal_eq_some signalled).1

end DemoStrategyListener

end TradingBot
