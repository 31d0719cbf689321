import Mathlib.Data.Rat.Defs

namespace TradingBot

/-! The records of `data_structures.h` and the request of
`execution_engine.h`.  A `double` is an exact rational and a `uint64_t` is a
`UInt64`, whose operations wrap as the code's do. -/

inductive OrderSide where
  | buy
  | sell
  deriving Repr, DecidableEq

def OrderSide.sign : OrderSide → Int
  | .buy => 1
  | .sell => -1

inductive OrderType where
  | market
  | limit
  | stop
  deriving Repr, DecidableEq

inductive OrderStatus where
  | pending
  | filled
  | partialFill
  | cancelled
  | rejected
  deriving Repr, DecidableEq

inductive PositionStatus where
  | opened
  | closed
  deriving Repr, DecidableEq

structure Timestamp where
  nanoseconds : UInt64
  deriving Repr, DecidableEq

instance : Inhabited Timestamp := ⟨⟨0⟩⟩

structure MarketTick where
  symbol : String
  bid : Rat
  ask : Rat
  bidVolume : UInt64
  askVolume : UInt64
  timestamp : Timestamp
  lastPrice : Rat
  volume : UInt64
  deriving Repr, DecidableEq

/-- The value-initialised tick `MarketTick()`. -/
instance : Inhabited MarketTick where
  default :=
    { symbol := "", bid := 0, ask := 0, bidVolume := 0, askVolume := 0,
      timestamp := default, lastPrice := 0, volume := 0 }

structure Order where
  orderId : UInt64
  symbol : String
  side : OrderSide
  orderType : OrderType
  price : Rat
  quantity : UInt64
  filledQuantity : UInt64
  status : OrderStatus
  createdAt : Timestamp
  filledAt : Timestamp
  commission : Rat
  clientOrderId : String
  deriving Repr, DecidableEq

structure Trade where
  tradeId : UInt64
  orderId : UInt64
  symbol : String
  side : OrderSide
  price : Rat
  quantity : UInt64
  executedAt : Timestamp
  totalCost : Rat
  deriving Repr, DecidableEq

structure Position where
  symbol : String
  side : OrderSide
  quantity : UInt64
  avgEntryPrice : Rat
  currentPrice : Rat
  status : PositionStatus
  openedAt : Timestamp
  closedAt : Timestamp
  unrealizedPnL : Rat
  realizedPnL : Rat
  deriving Repr, DecidableEq

structure OrderBook where
  symbol : String
  bids : List (Rat × UInt64)
  asks : List (Rat × UInt64)
  timestamp : Timestamp
  deriving Repr, DecidableEq

instance : Inhabited OrderBook :=
  ⟨{ symbol := "", bids := [], asks := [], timestamp := default }⟩

namespace OrderBook

def getMidPrice (book : OrderBook) : Rat :=
  match book.bids, book.asks with
  | bid :: _, ask :: _ => (bid.1 + ask.1) / 2
  | _, _ => 0

def getSpread (book : OrderBook) : Rat :=
  match book.bids, book.asks with
  | bid :: _, ask :: _ => ask.1 - bid.1
  | _, _ => 0

end OrderBook

inductive ExecutionPriority where
  | high
  | normal
  | low
  deriving Repr, DecidableEq

def ExecutionPriority.toInt : ExecutionPriority → Int
  | .high => 0
  | .normal => 1
  | .low => 2

structure ExecutionRequest where
  orderId : UInt64
  symbol : String
  side : OrderSide
  price : Rat
  quantity : UInt64
  priority : ExecutionPriority
  timestamp : Timestamp
  deriving Repr, DecidableEq

/-- `ExecutionRequest::operator>`: the left request is the less urgent one. -/
def ExecutionRequest.after (request other : ExecutionRequest) : Bool :=
  decide (other.priority.toInt < request.priority.toInt)

namespace OrderSide

@[simp] theorem sign_buy : OrderSide.buy.sign = 1 := rfl

@[simp] theorem sign_sell : OrderSide.sell.sign = -1 := rfl

theorem sign_of_ne {side other : OrderSide} (differ : side ≠ other) :
    side.sign = -other.sign := by
  cases side <;> cases other <;> simp at differ ⊢

theorem sign_eq (side : OrderSide) : side.sign = 1 ∨ side.sign = -1 := by
  cases side <;> simp

theorem sign_ne_zero (side : OrderSide) : side.sign ≠ 0 := by
  cases side <;> simp

end OrderSide

end TradingBot
