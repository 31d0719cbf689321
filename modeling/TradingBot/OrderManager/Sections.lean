import TradingBot.OrderManager
import TradingBot.Library.LockedObject

namespace TradingBot

open Library

/-! The operations of `order_manager.cpp` statement by statement: what each one
does under `orderMutex` or `tradeMutex`, an access of the members at a time.
The callbacks are handed an order and leave the manager alone. -/

inductive ManagerMutex where
  | orderMutex
  | tradeMutex
  deriving DecidableEq

/-- The members that `orderMutex` guards, and the counter that is increased
under it. -/
structure OrderMembers where
  orderIdCounter : UInt64
  orders : OrderMap
  totalOrdersPlaced : UInt64

structure TradeMembers where
  trades : List Trade
  totalTradesExecuted : UInt64

/-- The three loops over `orders`, by what they want. -/
inductive Listing where
  | active
  | history
  | bySymbol (symbol : String)

def Listing.wanted : Listing → Order → Bool
  | .active => OrderManager.isActive
  | .history => fun _ => true
  | .bySymbol symbol => fun order => decide (order.symbol = symbol)

/-- What `cancelOrder` and `modifyOrder` write. -/
inductive PendingChange where
  | cancel
  | modify (newPrice : Rat) (newQuantity : UInt64)

def PendingChange.apply : PendingChange → Order → Order
  | .cancel, order => { order with status := .cancelled }
  | .modify newPrice newQuantity, order =>
      { order with price := newPrice, quantity := newQuantity }

inductive OrderSection where
  | placeOrder (order : Order)
  | changePending (orderId : UInt64) (change : PendingChange)
  | simulateOrderExecution (orderId : UInt64) (executionPrice : Rat)
      (executedQuantity : UInt64)
  | getOrder (orderId : UInt64)
  | list (listing : Listing)

inductive TradeSection where
  | simulateTrade (trade : Trade)
  | getTradeHistory
  | getTrade (tradeId : UInt64)

/-- What a call gives its caller, with the order it has handed to the
callbacks. -/
inductive Answer where
  | placed (notified : Option Order) (orderId : UInt64)
  | changed (notified : Option Order) (success : Bool)
  | executed (notified : Option Order)
  | recorded
  | order (found : Option Order)
  | orders (listed : List Order)
  | trades (listed : List Trade)
  | trade (found : Option Trade)
  | count (total : UInt64)

/-- The program points under `orderMutex`, each before the statement it names,
with the locals. -/
inductive OrderPoint where
  | takeId (order : Order)
  | advanceCounter (newOrder : Order)
  | storeOrder (newOrder : Order)
  | countOrder (newOrder : Order)
  | notifyPlaced (newOrder : Order)
  | findPending (orderId : UInt64) (change : PendingChange)
  | testStatus (orderId : UInt64) (change : PendingChange)
  | writeStatus (orderId : UInt64)
  | writePrice (orderId : UInt64) (newPrice : Rat) (newQuantity : UInt64)
  | writeQuantity (orderId : UInt64) (newQuantity : UInt64)
  | notifyChanged (orderId : UInt64)
  | findExecuted (orderId : UInt64) (executedQuantity : UInt64)
  | writeFilledQuantity (orderId : UInt64) (executedQuantity : UInt64)
  | writeFilledStatus (orderId : UInt64) (executedQuantity : UInt64)
  | notifyExecuted (orderId : UInt64)
  | findOrder (orderId : UInt64)
  | nextOrder (listing : Listing) (visited : Option UInt64)
      (result : List Order)
  | finished (answer : Answer)

namespace OrderPoint

def enter : OrderSection → OrderPoint
  | .placeOrder order => .takeId order
  | .changePending orderId change => .findPending orderId change
  | .simulateOrderExecution orderId _ executedQuantity =>
      .findExecuted orderId executedQuantity
  | .getOrder orderId => .findOrder orderId
  | .list listing => .nextOrder listing none []

/-- `it->second.status == OrderStatus::PENDING`. -/
def pendingAt (members : OrderMembers) (orderId : UInt64) : Bool :=
  (members.orders[orderId]?).any fun order => decide (order.status = .pending)

/-- A write through the iterator. -/
def write (members : OrderMembers) (orderId : UInt64)
    (change : Order → Order) : OrderMembers :=
  { members with orders := members.orders.modify orderId change }

def step (point : OrderPoint) (members : OrderMembers) :
    OrderMembers × OrderPoint :=
  match point with
  | .takeId order =>
      (members,
        .advanceCounter
          { order with orderId := members.orderIdCounter, status := .pending })
  | .advanceCounter newOrder =>
      ({ members with orderIdCounter := members.orderIdCounter + 1 },
        .storeOrder newOrder)
  | .storeOrder newOrder =>
      ({ members with
          orders := members.orders.insert newOrder.orderId newOrder },
        .countOrder newOrder)
  | .countOrder newOrder =>
      ({ members with totalOrdersPlaced := members.totalOrdersPlaced + 1 },
        .notifyPlaced newOrder)
  | .notifyPlaced newOrder =>
      (members, .finished (.placed (some newOrder) newOrder.orderId))
  | .findPending orderId change =>
      (members,
        if (members.orders[orderId]?).isSome then .testStatus orderId change
        else .finished (.changed none false))
  | .testStatus orderId change =>
      (members,
        if pendingAt members orderId then
          match change with
          | .cancel => .writeStatus orderId
          | .modify newPrice newQuantity =>
              .writePrice orderId newPrice newQuantity
        else .finished (.changed none false))
  | .writeStatus orderId =>
      (write members orderId fun order => { order with status := .cancelled },
        .notifyChanged orderId)
  | .writePrice orderId newPrice newQuantity =>
      (write members orderId fun order => { order with price := newPrice },
        .writeQuantity orderId newQuantity)
  | .writeQuantity orderId newQuantity =>
      (write members orderId fun order =>
          { order with quantity := newQuantity },
        .notifyChanged orderId)
  | .notifyChanged orderId =>
      (members, .finished (.changed members.orders[orderId]? true))
  | .findExecuted orderId executedQuantity =>
      (members,
        if (members.orders[orderId]?).isSome then
          .writeFilledQuantity orderId executedQuantity
        else .finished (.executed none))
  | .writeFilledQuantity orderId executedQuantity =>
      (write members orderId fun order =>
          { order with filledQuantity := executedQuantity },
        .writeFilledStatus orderId executedQuantity)
  | .writeFilledStatus orderId executedQuantity =>
      (write members orderId fun order =>
          { order with
            status :=
              if executedQuantity = order.quantity then .filled
              else .partialFill },
        .notifyExecuted orderId)
  | .notifyExecuted orderId =>
      (members, .finished (.executed members.orders[orderId]?))
  | .findOrder orderId => (members, .finished (.order members.orders[orderId]?))
  | .nextOrder listing visited result =>
      (members,
        match nextEntry members.orders visited with
        | none => .finished (.orders result)
        | some (orderId, order) =>
            .nextOrder listing (some orderId)
              (if listing.wanted order then result ++ [order] else result))
  | .finished answer => (members, .finished answer)

def exit : OrderPoint → Option Answer
  | .finished answer => some answer
  | _ => none

/-- Where the section has taken effect. -/
def committed : OrderPoint → Bool
  | .notifyPlaced _ | .notifyChanged _ | .notifyExecuted _ | .finished _ => true
  | _ => false

end OrderPoint

inductive TradePoint where
  | pushTrade (trade : Trade)
  | countTrade
  | counted
  | copyTrade (result : List Trade)
  | testTrade (tradeId : UInt64) (index : Nat)
  | finished (answer : Answer)

namespace TradePoint

def enter : TradeSection → TradePoint
  | .simulateTrade trade => .pushTrade trade
  | .getTradeHistory => .copyTrade []
  | .getTrade tradeId => .testTrade tradeId 0

def step (point : TradePoint) (members : TradeMembers) :
    TradeMembers × TradePoint :=
  match point with
  | .pushTrade trade =>
      ({ members with trades := members.trades ++ [trade] }, .countTrade)
  | .countTrade =>
      ({ members with totalTradesExecuted := members.totalTradesExecuted + 1 },
        .counted)
  | .counted => (members, .finished .recorded)
  | .copyTrade result =>
      (members,
        match members.trades[result.length]? with
        | none => .finished (.trades result)
        | some trade => .copyTrade (result ++ [trade]))
  | .testTrade tradeId index =>
      (members,
        match members.trades[index]? with
        | none => .finished (.trade none)
        | some trade =>
            if trade.tradeId = tradeId then .finished (.trade (some trade))
            else .testTrade tradeId (index + 1))
  | .finished answer => (members, .finished answer)

def exit : TradePoint → Option Answer
  | .finished answer => some answer
  | _ => none

def committed : TradePoint → Bool
  | .counted | .finished _ => true
  | _ => false

end TradePoint

namespace OrderManager

def orderMembers (manager : OrderManager) : OrderMembers where
  orderIdCounter := manager.orderIdCounter
  orders := manager.orders
  totalOrdersPlaced := manager.totalOrdersPlaced

def tradeMembers (manager : OrderManager) : TradeMembers where
  trades := manager.trades
  totalTradesExecuted := manager.totalTradesExecuted

def assemble (orders : OrderMembers) (trades : TradeMembers) :
    OrderManager where
  orderIdCounter := orders.orderIdCounter
  orders := orders.orders
  trades := trades.trades
  totalOrdersPlaced := orders.totalOrdersPlaced
  totalTradesExecuted := trades.totalTradesExecuted

def performChange (manager : OrderManager) (orderId : UInt64) :
    PendingChange → Call Bool
  | .cancel => manager.cancelOrder orderId
  | .modify newPrice newQuantity =>
      manager.modifyOrder orderId newPrice newQuantity

/-- The whole section under `orderMutex` as one step. -/
def performOrder (manager : OrderManager) :
    OrderSection → OrderManager × Answer
  | .placeOrder order =>
      let call := manager.placeOrder order
      (call.manager, .placed call.notified call.result)
  | .changePending orderId change =>
      let call := manager.performChange orderId change
      (call.manager, .changed call.notified call.result)
  | .simulateOrderExecution orderId executionPrice executedQuantity =>
      let call := manager.simulateOrderExecution orderId executionPrice
        executedQuantity
      (call.manager, .executed call.notified)
  | .getOrder orderId => (manager, .order (manager.getOrder orderId))
  | .list listing => (manager, .orders (manager.ordersWhere listing.wanted))

def performTrade (manager : OrderManager) :
    TradeSection → OrderManager × Answer
  | .simulateTrade trade => (manager.simulateTrade trade, .recorded)
  | .getTradeHistory => (manager, .trades manager.getTradeHistory)
  | .getTrade tradeId => (manager, .trade (manager.getTrade tradeId))

end OrderManager

/-- The section as one step on the members it works on. -/
def OrderMembers.perform (members : OrderMembers) (performed : OrderSection) :
    OrderMembers × Answer :=
  let after := (OrderManager.assemble members ⟨[], 0⟩).performOrder performed
  (after.1.orderMembers, after.2)

def TradeMembers.perform (members : TradeMembers) (performed : TradeSection) :
    TradeMembers × Answer :=
  let after := (OrderManager.assemble ⟨0, ∅, 0⟩ members).performTrade performed
  (after.1.tradeMembers, after.2)

end TradingBot
