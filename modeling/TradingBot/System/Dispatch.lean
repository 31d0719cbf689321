import TradingBot.System
import Mathlib.Data.Multiset.Basic

namespace TradingBot

/-! `executeOrder` as one call, and requests executed one after another. -/

/-- A request with the clock readings of its execution. -/
structure Dispatch where
  request : ExecutionRequest
  executedAt : Timestamp
  latency : UInt64

def Trade.untimed (trade : Trade) : Trade :=
  { trade with executedAt := default }

/-- What is left of the system where the order of dispatch and the clock do not
matter: the trades without their order and their times. -/
structure Outcome where
  orders : OrderMap
  totalOrdersPlaced : UInt64
  totalTradesExecuted : UInt64
  totalExecuted : UInt64
  trades : Multiset Trade

namespace Outcome

def execute (marketData : MarketDataHandler) (outcome : Outcome)
    (request : ExecutionRequest) : Outcome :=
  if 0 < request.quantity then
    { outcome with
      orders := outcome.orders.modify request.orderId fun order =>
        OrderManager.executedOrder order request.quantity
      totalTradesExecuted := outcome.totalTradesExecuted + 1
      totalExecuted := outcome.totalExecuted + 1
      trades :=
        executedTrade request (marketData.getLatestTick request.symbol)
          default ::ₘ outcome.trades }
  else { outcome with totalExecuted := outcome.totalExecuted + 1 }

theorem execute_comm (marketData : MarketDataHandler) (outcome : Outcome)
    {first second : ExecutionRequest}
    (differ : first.orderId ≠ second.orderId) :
    (outcome.execute marketData first).execute marketData second =
      (outcome.execute marketData second).execute marketData first := by
  unfold execute
  by_cases firstFills : 0 < first.quantity
  · by_cases secondFills : 0 < second.quantity
    · simp only [firstFills, secondFills, if_true, Outcome.mk.injEq, true_and]
      exact ⟨Library.modify_comm differ _ _, Multiset.cons_swap _ _ _⟩
    · simp only [firstFills, secondFills, if_true, if_false]
  · by_cases secondFills : 0 < second.quantity
    · simp only [firstFills, secondFills, if_true, if_false]
    · simp only [firstFills, secondFills, if_false]

theorem foldl_execute_perm (marketData : MarketDataHandler)
    (outcome : Outcome) {first second : List ExecutionRequest}
    (reordered : first.Perm second)
    (distinct : (first.map ExecutionRequest.orderId).Nodup) :
    first.foldl (execute marketData) outcome =
      second.foldl (execute marketData) outcome := by
  apply reordered.foldl_eq'
  intro request member other otherMember current
  rcases eq_or_ne request.orderId other.orderId with same | differ
  · rw [List.inj_on_of_nodup_map distinct member otherMember same]
  · exact current.execute_comm marketData differ

end Outcome

namespace System

def outcome (system : System) : Outcome where
  orders := system.orderManager.orders
  totalOrdersPlaced := system.orderManager.totalOrdersPlaced
  totalTradesExecuted := system.orderManager.totalTradesExecuted
  totalExecuted := system.stats.totalExecuted
  trades := (system.orderManager.trades.map Trade.untimed : List Trade)

def executeOrder (system : System) (dispatch : Dispatch) : System :=
  let request := dispatch.request
  let latestTick := system.marketData.getLatestTick request.symbol
  if 0 < request.quantity then
    let executed :=
      (system.orderManager.simulateOrderExecution request.orderId
        (executionPrice request latestTick) request.quantity).manager
    let trade := executedTrade request latestTick dispatch.executedAt
    { system with orderManager := executed.simulateTrade trade }.finishRequest
      request dispatch.latency
  else system.finishRequest request dispatch.latency

def executeOrders (system : System) (dispatches : List Dispatch) : System :=
  dispatches.foldl executeOrder system

/-- The steps of `executionLoop` that make up the call. -/
def executionSteps (dispatch : Dispatch) : List Action :=
  if 0 < dispatch.request.quantity then
    [.getLatestTick, .simulateOrderExecution,
      .simulateTrade dispatch.executedAt, .recordLatency dispatch.latency]
  else [.getLatestTick, .recordLatency dispatch.latency]

/-- Undisturbed, the loop's steps do what the call does. -/
theorem run_executionSteps {system : System} {dispatch : Dispatch}
    (taken : system.loop = .taken dispatch.request)
    (marketData : MarketDataHandler) :
    (machine marketData).run system (executionSteps dispatch) =
      some (system.executeOrder dispatch) := by
  unfold executionSteps executeOrder
  split
  next positive =>
      simp [Library.Machine.run, machine, step, getLatestTick, taken,
        simulateOrderExecution, positive, simulateTrade, recordLatency,
        finishRequest]
  next zero =>
      have zero : dispatch.request.quantity = 0 := by simpa using zero
      simp [Library.Machine.run, machine, step, getLatestTick, taken,
        recordLatency, zero, finishRequest]

@[simp] theorem executeOrder_marketData (system : System)
    (dispatch : Dispatch) :
    (system.executeOrder dispatch).marketData = system.marketData := by
  unfold executeOrder
  dsimp only
  split <;> rfl

theorem simulateOrderExecution_eq_modify (manager : OrderManager)
    (orderId : UInt64) (executionPrice : Rat) (executedQuantity : UInt64) :
    (manager.simulateOrderExecution orderId executionPrice
      executedQuantity).manager =
      { manager with
        orders := manager.orders.modify orderId fun order =>
          OrderManager.executedOrder order executedQuantity } := by
  have orders : (manager.simulateOrderExecution orderId executionPrice
      executedQuantity).manager.orders =
        manager.orders.modify orderId fun order =>
          OrderManager.executedOrder order executedQuantity := by
    apply Std.ExtTreeMap.ext_getElem?
    intro key
    rw [OrderManager.simulateOrderExecution_orders,
      Library.getElem?_modify_eq_map]
  rw [← orders, OrderManager.simulateOrderExecution]
  split <;> rfl

theorem outcome_executeOrder (system : System) (dispatch : Dispatch) :
    (system.executeOrder dispatch).outcome =
      system.outcome.execute system.marketData dispatch.request := by
  unfold executeOrder Outcome.execute
  dsimp only
  split
  next =>
      rw [simulateOrderExecution_eq_modify]
      simp only [outcome, finishRequest, OrderManager.simulateTrade,
        ExecutionStats.recordLatency, List.map_append, Outcome.mk.injEq,
        true_and]
      rw [Multiset.cons_coe, Multiset.coe_eq_coe]
      exact List.perm_append_singleton _ _
  next => rfl

theorem outcome_executeOrders (system : System) (dispatches : List Dispatch) :
    (system.executeOrders dispatches).outcome =
      (dispatches.map Dispatch.request).foldl
        (Outcome.execute system.marketData) system.outcome := by
  induction dispatches generalizing system with
  | nil => rfl
  | cons dispatch rest induction =>
      have tail := induction (system.executeOrder dispatch)
      rw [executeOrder_marketData, outcome_executeOrder] at tail
      exact tail

/-- Requests for different orders give the same outcome in every order of
dispatch. -/
theorem dispatch_order_irrelevant (system : System)
    {first second : List Dispatch}
    (reordered :
      (first.map Dispatch.request).Perm (second.map Dispatch.request))
    (distinct :
      (first.map fun dispatch => dispatch.request.orderId).Nodup) :
    (system.executeOrders first).orderManager.orders =
        (system.executeOrders second).orderManager.orders ∧
      (system.executeOrders first).orderManager.totalOrdersPlaced =
        (system.executeOrders second).orderManager.totalOrdersPlaced ∧
      (system.executeOrders first).orderManager.totalTradesExecuted =
        (system.executeOrders second).orderManager.totalTradesExecuted ∧
      (system.executeOrders first).stats.totalExecuted =
        (system.executeOrders second).stats.totalExecuted ∧
      ((system.executeOrders first).orderManager.trades.map Trade.untimed).Perm
        ((system.executeOrders second).orderManager.trades.map
          Trade.untimed) := by
  have same : (system.executeOrders first).outcome =
      (system.executeOrders second).outcome := by
    rw [outcome_executeOrders, outcome_executeOrders]
    apply Outcome.foldl_execute_perm _ _ reordered
    rwa [List.map_map]
  simp only [outcome, Outcome.mk.injEq, Multiset.coe_eq_coe] at same
  exact same

private def dispatchOf (orderId : UInt64) (order : Order) : Dispatch where
  request := requestFor orderId order default
  executedAt := default
  latency := 1

private def largerBid : Order := signalOrder "AAPL" .buy 101

private def smallerBid : Order :=
  { signalOrder "AAPL" .buy 99 with quantity := 50 }

/-- The orders 1000 and 1001 are placed, and the ask is 100. -/
private def placedSystem : System :=
  let subscribed := MarketDataHandler.init.subscribe "AAPL" 0
  let tick := { (default : MarketTick) with symbol := "AAPL", ask := 100 }
  ((init (subscribed.publishTick (fun _ => false) tick).1).placeOrder
    largerBid).placeOrder smallerBid

private def dispatched : System :=
  placedSystem.executeOrders
    [dispatchOf 1000 largerBid, dispatchOf 1001 smallerBid]

private def dispatchedSwapped : System :=
  placedSystem.executeOrders
    [dispatchOf 1001 smallerBid, dispatchOf 1000 largerBid]

theorem dispatch_order_irrelevant_swap :
    (dispatched.orderManager.orders = dispatchedSwapped.orderManager.orders ∧
      dispatched.orderManager.totalOrdersPlaced =
        dispatchedSwapped.orderManager.totalOrdersPlaced ∧
      dispatched.orderManager.totalTradesExecuted =
        dispatchedSwapped.orderManager.totalTradesExecuted ∧
      dispatched.stats.totalExecuted = dispatchedSwapped.stats.totalExecuted ∧
      (dispatched.orderManager.trades.map Trade.untimed).Perm
        (dispatchedSwapped.orderManager.trades.map Trade.untimed)) ∧
    ((dispatched.orderManager.getOrder 1000).map Order.status = some .filled ∧
      (dispatched.orderManager.getOrder 1001).map Order.status = some .filled ∧
      dispatched.orderManager.trades.map Trade.price = [100, 99] ∧
      dispatchedSwapped.orderManager.trades.map Trade.price = [99, 100]) :=
  ⟨dispatch_order_irrelevant placedSystem
      ((List.Perm.swap (dispatchOf 1001 smallerBid)
        (dispatchOf 1000 largerBid) []).map Dispatch.request) (by decide),
    by decide +kernel⟩

end System

end TradingBot
