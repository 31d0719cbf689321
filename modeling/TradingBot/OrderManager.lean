import TradingBot.Data
import TradingBot.Library.OrderedMap

namespace TradingBot

/-! `order_manager.cpp`.  A public operation holds `orderMutex` (or
`tradeMutex`) from its first to its last line, so it is one step here. -/

abbrev OrderMap := Std.ExtTreeMap UInt64 Order

structure OrderManager where
  orderIdCounter : UInt64
  orders : OrderMap
  trades : List Trade
  totalOrdersPlaced : UInt64
  totalTradesExecuted : UInt64

/-- What a mutating call leaves behind: the members, the order it hands to
`notifyOrderChanged` as its last action, and its return value. -/
structure Call (Result : Type) where
  manager : OrderManager
  notified : Option Order
  result : Result

namespace OrderManager

def init : OrderManager where
  orderIdCounter := 1000
  orders := ∅
  trades := []
  totalOrdersPlaced := 0
  totalTradesExecuted := 0

def placeOrder (manager : OrderManager) (order : Order) : Call UInt64 :=
  let newOrder :=
    { order with orderId := manager.orderIdCounter, status := .pending }
  { manager :=
      { manager with
        orderIdCounter := manager.orderIdCounter + 1
        orders := manager.orders.insert newOrder.orderId newOrder
        totalOrdersPlaced := manager.totalOrdersPlaced + 1 }
    notified := some newOrder
    result := newOrder.orderId }

/-- The shared body of `cancelOrder` and `modifyOrder`: find the order, and
only if it is pending change it, notify and report success. -/
def changePending (manager : OrderManager) (orderId : UInt64)
    (change : Order → Order) : Call Bool :=
  match manager.orders[orderId]? with
  | none => { manager, notified := none, result := false }
  | some order =>
      if order.status = .pending then
        { manager :=
            { manager with
              orders := manager.orders.insert orderId (change order) }
          notified := some (change order)
          result := true }
      else
        { manager, notified := none, result := false }

def cancelOrder (manager : OrderManager) (orderId : UInt64) : Call Bool :=
  manager.changePending orderId fun order =>
    { order with status := .cancelled }

def modifyOrder (manager : OrderManager) (orderId : UInt64)
    (newPrice : Rat) (newQuantity : UInt64) : Call Bool :=
  manager.changePending orderId fun order =>
    { order with price := newPrice, quantity := newQuantity }

/-- The order after an execution.  The executed quantity replaces
`filledQuantity`; the execution price is not stored. -/
def executedOrder (order : Order) (executedQuantity : UInt64) : Order :=
  { order with
    filledQuantity := executedQuantity
    status :=
      if executedQuantity = order.quantity then .filled else .partialFill }

def simulateOrderExecution (manager : OrderManager) (orderId : UInt64)
    (_executionPrice : Rat) (executedQuantity : UInt64) : Call Unit :=
  match manager.orders[orderId]? with
  | none => { manager, notified := none, result := () }
  | some order =>
      let executed := executedOrder order executedQuantity
      { manager :=
          { manager with orders := manager.orders.insert orderId executed }
        notified := some executed
        result := () }

def simulateTrade (manager : OrderManager) (trade : Trade) : OrderManager :=
  { manager with
    trades := manager.trades ++ [trade]
    totalTradesExecuted := manager.totalTradesExecuted + 1 }

/-- `none` stands for the value-initialised `Order()`, whose side is no
enumerator. -/
def getOrder (manager : OrderManager) (orderId : UInt64) : Option Order :=
  manager.orders[orderId]?

/-- The loop that the three listings share: every stored order that is wanted,
by increasing id. -/
def ordersWhere (manager : OrderManager) (wanted : Order → Bool) : List Order :=
  (manager.orders.toList.filter fun pair => wanted pair.2).map Prod.snd

def isActive (order : Order) : Bool :=
  decide (order.status = .pending ∨ order.status = .partialFill)

def getActiveOrders (manager : OrderManager) : List Order :=
  manager.ordersWhere isActive

def getOrderHistory (manager : OrderManager) : List Order :=
  manager.ordersWhere fun _ => true

def getOrdersBySymbol (manager : OrderManager) (symbol : String) : List Order :=
  manager.ordersWhere fun order => decide (order.symbol = symbol)

def getTradeHistory (manager : OrderManager) : List Trade :=
  manager.trades

/-- The first match; `none` stands for the value-initialised `Trade()`. -/
def getTrade (manager : OrderManager) (tradeId : UInt64) : Option Trade :=
  manager.trades.find? fun trade => decide (trade.tradeId = tradeId)

def tradesOf (manager : OrderManager) (orderId : UInt64) : List Trade :=
  manager.trades.filter (fun trade => decide (trade.orderId = orderId))

variable (manager : OrderManager)

@[simp] theorem init_orders : init.orders = ∅ := rfl

@[simp] theorem init_trades : init.trades = [] := rfl

@[simp] theorem placeOrder_counter (order : Order) :
    (manager.placeOrder order).manager.orderIdCounter =
      manager.orderIdCounter + 1 := rfl

@[simp] theorem placeOrder_trades (order : Order) :
    (manager.placeOrder order).manager.trades = manager.trades := rfl

@[simp] theorem placeOrder_result (order : Order) :
    (manager.placeOrder order).result = manager.orderIdCounter := rfl

theorem placeOrder_orders (order : Order) (key : UInt64) :
    (manager.placeOrder order).manager.orders[key]? =
      if key = manager.orderIdCounter then
        some { order with orderId := manager.orderIdCounter, status := .pending }
      else manager.orders[key]? := by
  exact Library.getElem?_insert_eq_ite _ key

section ChangePending

variable (orderId : UInt64) (change : Order → Order)

@[simp] theorem changePending_counter :
    (manager.changePending orderId change).manager.orderIdCounter =
      manager.orderIdCounter := by
  unfold changePending
  split
  · rfl
  · split <;> rfl

@[simp] theorem changePending_trades :
    (manager.changePending orderId change).manager.trades =
      manager.trades := by
  unfold changePending
  split
  · rfl
  · split <;> rfl

theorem changePending_orders (key : UInt64) :
    (manager.changePending orderId change).manager.orders[key]? =
      (manager.orders[key]?).map fun order =>
        if key = orderId ∧ order.status = .pending then change order
        else order := by
  simp only [ite_and]
  unfold changePending
  split
  next absent =>
      exact (Library.getElem?_change_of_fixed (by simp [absent]) key).symm
  next order found =>
      split
      next pending =>
          rw [← Library.getElem?_insert_change found
            (fun order => if order.status = .pending then change order else order)
            key, if_pos pending]
      next settled =>
          exact (Library.getElem?_change_of_fixed
            (by simp [found, settled]) key).symm

end ChangePending

@[simp] theorem cancelOrder_counter (orderId : UInt64) :
    (manager.cancelOrder orderId).manager.orderIdCounter =
      manager.orderIdCounter :=
  manager.changePending_counter orderId _

@[simp] theorem cancelOrder_trades (orderId : UInt64) :
    (manager.cancelOrder orderId).manager.trades = manager.trades :=
  manager.changePending_trades orderId _

@[simp] theorem modifyOrder_counter (orderId : UInt64) (newPrice : Rat)
    (newQuantity : UInt64) :
    (manager.modifyOrder orderId newPrice newQuantity).manager.orderIdCounter =
      manager.orderIdCounter :=
  manager.changePending_counter orderId _

@[simp] theorem modifyOrder_trades (orderId : UInt64) (newPrice : Rat)
    (newQuantity : UInt64) :
    (manager.modifyOrder orderId newPrice newQuantity).manager.trades =
      manager.trades :=
  manager.changePending_trades orderId _

@[simp] theorem simulateOrderExecution_counter (orderId : UInt64)
    (executionPrice : Rat) (executedQuantity : UInt64) :
    (manager.simulateOrderExecution orderId executionPrice
      executedQuantity).manager.orderIdCounter = manager.orderIdCounter := by
  unfold simulateOrderExecution
  split <;> rfl

@[simp] theorem simulateOrderExecution_trades (orderId : UInt64)
    (executionPrice : Rat) (executedQuantity : UInt64) :
    (manager.simulateOrderExecution orderId executionPrice
      executedQuantity).manager.trades = manager.trades := by
  unfold simulateOrderExecution
  split <;> rfl

theorem simulateOrderExecution_orders (orderId key : UInt64)
    (executionPrice : Rat) (executedQuantity : UInt64) :
    (manager.simulateOrderExecution orderId executionPrice
      executedQuantity).manager.orders[key]? =
      (manager.orders[key]?).map fun order =>
        if key = orderId then executedOrder order executedQuantity
        else order := by
  refine Library.getElem?_of_changed (fun absent => ?_)
    (fun order found => ?_) key
  · rw [simulateOrderExecution, absent]
  · rw [simulateOrderExecution, found]

@[simp] theorem simulateTrade_counter (trade : Trade) :
    (manager.simulateTrade trade).orderIdCounter = manager.orderIdCounter := rfl

@[simp] theorem simulateTrade_orders (trade : Trade) :
    (manager.simulateTrade trade).orders = manager.orders := rfl

@[simp] theorem simulateTrade_trades (trade : Trade) :
    (manager.simulateTrade trade).trades = manager.trades ++ [trade] := rfl

theorem tradesOf_simulateTrade (trade : Trade) (orderId : UInt64) :
    (manager.simulateTrade trade).tradesOf orderId =
      manager.tradesOf orderId ++
        if trade.orderId = orderId then [trade] else [] := by
  rw [tradesOf, simulateTrade_trades, List.filter_append]
  split <;> simp_all [tradesOf]

end OrderManager

end TradingBot
