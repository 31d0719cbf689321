import TradingBot.OrderManager
import TradingBot.MarketData
import Mathlib.Algebra.Order.Ring.Rat

namespace TradingBot

/-! `execution_engine.cpp`, apart from its threads: the priority queue, the
pieces of `executeOrder`, and the statistics. -/

/-- The specification of `std::priority_queue` under `std::greater`: `top` is
some queued request that is not less urgent than another queued one. -/
def IsTop (queue : List ExecutionRequest) (request : ExecutionRequest) : Prop :=
  request ∈ queue ∧ ∀ other ∈ queue, request.after other = false

instance (queue : List ExecutionRequest) (request : ExecutionRequest) :
    Decidable (IsTop queue request) :=
  inferInstanceAs (Decidable (_ ∧ _))

def MarketTick.quote (tick : MarketTick) : OrderSide → Rat
  | .buy => tick.ask
  | .sell => tick.bid

def OrderSide.Allows (side : OrderSide) (limit price : Rat) : Prop :=
  match side with
  | .buy => price ≤ limit
  | .sell => limit ≤ price

instance (side : OrderSide) (limit price : Rat) :
    Decidable (side.Allows limit price) :=
  match side with
  | .buy => inferInstanceAs (Decidable (price ≤ limit))
  | .sell => inferInstanceAs (Decidable (limit ≤ price))

def executionPrice (request : ExecutionRequest) (latestTick : MarketTick) : Rat :=
  match request.side with
  | .buy => min request.price latestTick.ask
  | .sell => max request.price latestTick.bid

theorem allows_executionPrice {request : ExecutionRequest}
    {latestTick : MarketTick} {limit : Rat} :
    request.side.Allows limit (executionPrice request latestTick) ↔
      request.side.Allows limit request.price ∨
        request.side.Allows limit (latestTick.quote request.side) := by
  unfold executionPrice
  cases request.side with
  | buy => exact min_le_iff
  | sell => exact le_max_iff

/-- The trade record `executeOrder` fills in from its own copy of the
request. -/
def executedTrade (request : ExecutionRequest) (latestTick : MarketTick)
    (executedAt : Timestamp) : Trade where
  tradeId := request.orderId
  orderId := request.orderId
  symbol := request.symbol
  side := request.side
  price := executionPrice request latestTick
  quantity := request.quantity
  executedAt := executedAt
  totalCost := executionPrice request latestTick * request.quantity.toNat

structure ExecutionStats where
  totalExecuted : UInt64
  totalLatency : UInt64
  maxLatency : Rat
  minLatency : Rat

/-- `std::numeric_limits<double>::max()`. -/
def doubleMax : Rat := (2 ^ 53 - 1) * 2 ^ 971

namespace ExecutionStats

def init : ExecutionStats where
  totalExecuted := 0
  totalLatency := 0
  maxLatency := 0
  minLatency := doubleMax

def recordLatency (stats : ExecutionStats) (latency : UInt64) :
    ExecutionStats :=
  let latencyDouble : Rat := latency.toNat
  { totalExecuted := stats.totalExecuted + 1
    totalLatency := stats.totalLatency + latency
    maxLatency :=
      if stats.maxLatency < latencyDouble then latencyDouble
      else stats.maxLatency
    minLatency :=
      if latencyDouble < stats.minLatency then latencyDouble
      else stats.minLatency }

def getAverageLatency (stats : ExecutionStats) : Rat :=
  if stats.totalExecuted = 0 then 0
  else stats.totalLatency.toNat / stats.totalExecuted.toNat

def getMaxLatency (stats : ExecutionStats) : Rat :=
  stats.maxLatency

def getMinLatency (stats : ExecutionStats) : Rat :=
  if stats.minLatency = doubleMax then 0 else stats.minLatency

end ExecutionStats

end TradingBot
