import TradingBot.Library.Machine
import TradingBot.ExecutionEngine
import TradingBot.Listener

namespace TradingBot

/-! Clients, the market feed and the execution loop over one `OrderManager`,
one `MarketDataHandler` and one `ExecutionEngine`.  A step is one section under
one mutex, so `executeOrder` takes four: between any two of them the clients
may call. -/

/-- The locals of `executionLoop` and `executeOrder`. -/
inductive LoopStage where
  | waiting
  | taken (request : ExecutionRequest)
  | quoted (request : ExecutionRequest) (latestTick : MarketTick)
  | executed (request : ExecutionRequest) (latestTick : MarketTick)
  | traded (request : ExecutionRequest) (latestTick : MarketTick)
  deriving DecidableEq

def LoopStage.request? : LoopStage → Option ExecutionRequest
  | .waiting => none
  | .taken request => some request
  | .quoted request _ => some request
  | .executed request _ => some request
  | .traded request _ => some request

/-- `executed` is a history variable: the requests whose `executeOrder` has
returned. -/
structure System where
  orderManager : OrderManager
  marketData : MarketDataHandler
  executionQueue : List ExecutionRequest
  loop : LoopStage
  executed : List ExecutionRequest
  stats : ExecutionStats

inductive Action where
  | placeOrder (order : Order)
  | cancelOrder (orderId : UInt64)
  | modifyOrder (orderId : UInt64) (newPrice : Rat) (newQuantity : UInt64)
  | submitOrder (request : ExecutionRequest)
  | publishTick (tick : MarketTick)
  | publishOrderBook (book : OrderBook)
  | takeRequest (request : ExecutionRequest)
  | getLatestTick
  | simulateOrderExecution
  | simulateTrade (executedAt : Timestamp)
  | recordLatency (latency : UInt64)

namespace System

def placeOrder (system : System) (order : Order) : System :=
  { system with
    orderManager := (system.orderManager.placeOrder order).manager }

def cancelOrder (system : System) (orderId : UInt64) : System :=
  { system with
    orderManager := (system.orderManager.cancelOrder orderId).manager }

def modifyOrder (system : System) (orderId : UInt64) (newPrice : Rat)
    (newQuantity : UInt64) : System :=
  { system with
    orderManager :=
      (system.orderManager.modifyOrder orderId newPrice newQuantity).manager }

def submitOrder (system : System) (request : ExecutionRequest) : System :=
  { system with executionQueue := system.executionQueue ++ [request] }

/-- The calls a listener makes while it is notified are steps of their own. -/
def publishTick (system : System) (tick : MarketTick) : System :=
  { system with
    marketData := (system.marketData.publishTick (fun _ => false) tick).1 }

def publishOrderBook (system : System) (book : OrderBook) : System :=
  { system with
    marketData := (system.marketData.publishOrderBook (fun _ => false) book).1 }

/-- `executionQueue.top()` and `executionQueue.pop()`. -/
def takeRequest (system : System) (request : ExecutionRequest) :
    Option System :=
  if system.loop = .waiting ∧ IsTop system.executionQueue request then
    some { system with
      executionQueue := system.executionQueue.erase request
      loop := .taken request }
  else none

def getLatestTick (system : System) : Option System :=
  match system.loop with
  | .taken request =>
      some { system with
        loop := .quoted request (system.marketData.getLatestTick request.symbol) }
  | _ => none

/-- Only entered when `executedQuantity > 0`. -/
def simulateOrderExecution (system : System) : Option System :=
  match system.loop with
  | .quoted request latestTick =>
      if 0 < request.quantity then
        some { system with
          orderManager :=
            (system.orderManager.simulateOrderExecution request.orderId
              (executionPrice request latestTick) request.quantity).manager
          loop := .executed request latestTick }
      else none
  | _ => none

def simulateTrade (system : System) (executedAt : Timestamp) : Option System :=
  match system.loop with
  | .executed request latestTick =>
      some { system with
        orderManager := system.orderManager.simulateTrade
          (executedTrade request latestTick executedAt)
        loop := .traded request latestTick }
  | _ => none

def finishRequest (system : System) (request : ExecutionRequest)
    (latency : UInt64) : System :=
  { system with
    loop := .waiting
    executed := system.executed ++ [request]
    stats := system.stats.recordLatency latency }

def recordLatency (system : System) (latency : UInt64) : Option System :=
  match system.loop with
  | .traded request _ => some (system.finishRequest request latency)
  | .quoted request _ =>
      if request.quantity = 0 then some (system.finishRequest request latency)
      else none
  | _ => none

def step (system : System) : Action → Option System
  | .placeOrder order => some (system.placeOrder order)
  | .cancelOrder orderId => some (system.cancelOrder orderId)
  | .modifyOrder orderId newPrice newQuantity =>
      some (system.modifyOrder orderId newPrice newQuantity)
  | .submitOrder request => some (system.submitOrder request)
  | .publishTick tick => some (system.publishTick tick)
  | .publishOrderBook book => some (system.publishOrderBook book)
  | .takeRequest request => system.takeRequest request
  | .getLatestTick => system.getLatestTick
  | .simulateOrderExecution => system.simulateOrderExecution
  | .simulateTrade executedAt => system.simulateTrade executedAt
  | .recordLatency latency => system.recordLatency latency

def init (marketData : MarketDataHandler) : System where
  orderManager := OrderManager.init
  marketData := marketData
  executionQueue := []
  loop := .waiting
  executed := []
  stats := ExecutionStats.init

def machine (marketData : MarketDataHandler) : Library.Machine System Action where
  init := init marketData
  step := step

section Inversion

variable {system next : System}

theorem takeRequest_eq_some {request : ExecutionRequest} :
    system.takeRequest request = some next ↔
      system.loop = .waiting ∧ IsTop system.executionQueue request ∧
        next = { system with
          executionQueue := system.executionQueue.erase request
          loop := .taken request } := by
  unfold takeRequest
  split
  next enabled => simp [enabled.1, enabled.2, eq_comm]
  next disabled =>
      simp only [reduceCtorEq, false_iff]
      exact fun enabled => disabled ⟨enabled.1, enabled.2.1⟩

theorem getLatestTick_eq_some :
    system.getLatestTick = some next ↔
      ∃ request, system.loop = .taken request ∧
        next = { system with
          loop := .quoted request
            (system.marketData.getLatestTick request.symbol) } := by
  unfold getLatestTick
  cases system.loop <;> simp [eq_comm]

theorem simulateOrderExecution_eq_some :
    system.simulateOrderExecution = some next ↔
      ∃ request latestTick, system.loop = .quoted request latestTick ∧
        0 < request.quantity ∧
        next = { system with
          orderManager :=
            (system.orderManager.simulateOrderExecution request.orderId
              (executionPrice request latestTick) request.quantity).manager
          loop := .executed request latestTick } := by
  unfold simulateOrderExecution
  cases system.loop with
  | quoted request latestTick =>
      simp only [LoopStage.quoted.injEq]
      constructor
      · intro stepped
        split at stepped
        next positive =>
            exact ⟨request, latestTick, ⟨rfl, rfl⟩, positive,
              (Option.some.inj stepped).symm⟩
        next => contradiction
      · intro enabled
        obtain ⟨_, _, ⟨rfl, rfl⟩, positive, rfl⟩ := enabled
        simp [positive]
  | _ => simp

theorem simulateTrade_eq_some {executedAt : Timestamp} :
    system.simulateTrade executedAt = some next ↔
      ∃ request latestTick, system.loop = .executed request latestTick ∧
        next = { system with
          orderManager := system.orderManager.simulateTrade
            (executedTrade request latestTick executedAt)
          loop := .traded request latestTick } := by
  unfold simulateTrade
  cases system.loop <;> simp [eq_comm]

theorem recordLatency_eq_some {latency : UInt64} :
    system.recordLatency latency = some next ↔
      ∃ request latestTick,
        (system.loop = .traded request latestTick ∨
          system.loop = .quoted request latestTick ∧ request.quantity = 0) ∧
        next = system.finishRequest request latency := by
  unfold recordLatency
  cases system.loop with
  | traded request latestTick => simp [eq_comm]
  | quoted request latestTick =>
      simp only [LoopStage.quoted.injEq, reduceCtorEq, false_or]
      constructor
      · intro stepped
        split at stepped
        next zero =>
            exact ⟨request, latestTick, ⟨⟨rfl, rfl⟩, zero⟩,
              (Option.some.inj stepped).symm⟩
        next => contradiction
      · intro enabled
        obtain ⟨_, _, ⟨⟨rfl, rfl⟩, zero⟩, rfl⟩ := enabled
        simp [zero]
  | _ => simp

end Inversion

end System

end TradingBot
