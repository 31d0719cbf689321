import TradingBot.System
import TradingBot.Signals

namespace TradingBot

/-! A recorded trade against the terms of its order.  The trade is written
from the request, which was copied from the order when it was submitted. -/

/-- The request asks for no more than the order allows. -/
structure ExecutionRequest.WithinTerms (request : ExecutionRequest)
    (order : Order) : Prop where
  symbol : request.symbol = order.symbol
  side : request.side = order.side
  quantity : request.quantity ≤ order.quantity
  price : order.side.Allows order.price request.price

theorem ExecutionRequest.withinTerms_iff (request : ExecutionRequest)
    (order : Order) :
    request.WithinTerms order ↔
      request.symbol = order.symbol ∧ request.side = order.side ∧
        request.quantity ≤ order.quantity ∧
        order.side.Allows order.price request.price :=
  ⟨fun within => ⟨within.symbol, within.side, within.quantity, within.price⟩,
    fun ⟨symbol, side, quantity, price⟩ => ⟨symbol, side, quantity, price⟩⟩

instance (request : ExecutionRequest) (order : Order) :
    Decidable (request.WithinTerms order) :=
  decidable_of_iff _ (request.withinTerms_iff order).symm

namespace OrderManager

def Honours (manager : OrderManager) (trade : Trade) : Prop :=
  ∃ order ∈ manager.orders[trade.orderId]?,
    trade.symbol = order.symbol ∧ trade.side = order.side ∧
      trade.quantity ≤ order.quantity ∧
      order.side.Allows order.price trade.price

instance (manager : OrderManager) (trade : Trade) :
    Decidable (manager.Honours trade) :=
  Option.decidableExistsMem _

/-- The request is within the terms of a stored order. -/
def Covers (manager : OrderManager) (request : ExecutionRequest) : Prop :=
  ∃ order ∈ manager.orders[request.orderId]?, request.WithinTerms order

theorem Covers.honours {manager : OrderManager} {request : ExecutionRequest}
    (covers : manager.Covers request) (latestTick : MarketTick)
    (executedAt : Timestamp) :
    manager.Honours (executedTrade request latestTick executedAt) := by
  obtain ⟨order, stored, within⟩ := covers
  refine ⟨order, stored, within.symbol, within.side, within.quantity, ?_⟩
  rw [← within.side]
  apply allows_executionPrice.mpr
  rw [within.side]
  exact .inl within.price

end OrderManager

def LoopStage.untraded : LoopStage → List ExecutionRequest
  | .taken request | .quoted request _ | .executed request _ => [request]
  | .waiting | .traded _ _ => []

namespace System

/-- Whatever trade the step appends honours the order store of that moment. -/
def AppendsHonoured (system : System) (action : Action) : Prop :=
  ∀ next trade, system.step action = some next →
    next.orderManager.trades = system.orderManager.trades ++ [trade] →
      system.orderManager.Honours trade

/-- The requests whose trade is still to come. -/
def untraded (system : System) : List ExecutionRequest :=
  system.executionQueue ++ system.loop.untraded

/-- A request is submitted within the terms of its stored order, and no
successful modify, and no order placed under a used id, takes these from a
request whose trade is still to come.  A request for nothing never trades. -/
def KeepsTerms (system : System) : Action → Prop
  | .submitOrder request =>
      request.quantity ≠ 0 → system.orderManager.Covers request
  | .modifyOrder orderId newPrice newQuantity =>
      ∀ order ∈ system.orderManager.orders[orderId]?,
        order.status = .pending → ∀ request ∈ system.untraded,
          request.quantity ≠ 0 → request.orderId = orderId →
            request.WithinTerms
              { order with price := newPrice, quantity := newQuantity }
  | .placeOrder order =>
      ∀ request ∈ system.untraded, request.quantity ≠ 0 →
        request.orderId = system.orderManager.orderIdCounter →
          request.WithinTerms order
  | _ => True

instance (system : System) :
    ∀ action, Decidable (system.KeepsTerms action)
  | .submitOrder request =>
      inferInstanceAs (Decidable (_ → ∃ order ∈
        system.orderManager.orders[request.orderId]?,
          request.WithinTerms order))
  | .modifyOrder orderId newPrice newQuantity =>
      inferInstanceAs (Decidable (∀ order ∈
        system.orderManager.orders[orderId]?, order.status = .pending →
          ∀ request ∈ system.untraded, request.quantity ≠ 0 →
            request.orderId = orderId → request.WithinTerms
              { order with price := newPrice, quantity := newQuantity }))
  | .placeOrder order =>
      inferInstanceAs (Decidable (∀ request ∈ system.untraded,
        request.quantity ≠ 0 →
          request.orderId = system.orderManager.orderIdCounter →
            request.WithinTerms order))
  | .cancelOrder _ | .publishTick _ | .publishOrderBook _ | .takeRequest _
  | .getLatestTick | .simulateOrderExecution | .simulateTrade _
  | .recordLatency _ => inferInstanceAs (Decidable True)

/-- Every request that is still to trade is within its order's terms. -/
structure QueueCovered (system : System) : Prop where
  covered : ∀ request ∈ system.untraded, request.quantity ≠ 0 →
    system.orderManager.Covers request
  executing : ∀ request latestTick,
    system.loop = .executed request latestTick → request.quantity ≠ 0

theorem queueCovered_init (marketData : MarketDataHandler) :
    (init marketData).QueueCovered where
  covered := by simp [untraded, init, LoopStage.untraded]
  executing := by simp [init]

section Preserved

variable {system next : System}

/-- What is within the terms of an order stays so while the orders' terms do. -/
theorem covers_of_map {manager other : OrderManager}
    {request : ExecutionRequest} {change : Order → Order}
    (changed : other.orders[request.orderId]? =
      (manager.orders[request.orderId]?).map change)
    (kept : ∀ order ∈ manager.orders[request.orderId]?,
      request.WithinTerms order → request.WithinTerms (change order))
    (covers : manager.Covers request) : other.Covers request := by
  obtain ⟨order, stored, within⟩ := covers
  refine ⟨change order, ?_, kept order stored within⟩
  rw [changed, Option.mem_def.mp stored]
  rfl

theorem QueueCovered.of_orders (covered : system.QueueCovered)
    {orderManager : OrderManager}
    (kept : ∀ request ∈ system.untraded, request.quantity ≠ 0 →
      system.orderManager.Covers request → orderManager.Covers request) :
    QueueCovered { system with orderManager } where
  covered request member asks :=
    kept request member asks (covered.covered request member asks)
  executing := covered.executing

/-- The loop moves on with some of the requests. -/
theorem QueueCovered.of_subset (covered : system.QueueCovered)
    (manager : next.orderManager = system.orderManager)
    (subset : ∀ request ∈ next.untraded, request ∈ system.untraded)
    (executing : ∀ request latestTick,
      next.loop ≠ .executed request latestTick) : next.QueueCovered where
  covered request member asks := by
    rw [manager]
    exact covered.covered request (subset request member) asks
  executing request latestTick stage :=
    absurd stage (executing request latestTick)

theorem QueueCovered.placeOrder (covered : system.QueueCovered)
    {order : Order} (kept : system.KeepsTerms (.placeOrder order)) :
    (system.placeOrder order).QueueCovered := by
  apply covered.of_orders
  intro request member asks covers
  by_cases reused : request.orderId = system.orderManager.orderIdCounter
  · have within := kept request member asks reused
    refine
      ⟨{ order with
          orderId := system.orderManager.orderIdCounter, status := .pending },
        ?_, within.symbol, within.side, within.quantity, within.price⟩
    rw [OrderManager.placeOrder_orders, if_pos reused]
    rfl
  · obtain ⟨stored, found, within⟩ := covers
    refine ⟨stored, ?_, within⟩
    rw [OrderManager.placeOrder_orders, if_neg reused]
    exact found

theorem QueueCovered.cancelOrder (covered : system.QueueCovered)
    (orderId : UInt64) : (system.cancelOrder orderId).QueueCovered := by
  apply covered.of_orders
  intro request _ _ covers
  refine covers_of_map (system.orderManager.changePending_orders ..) ?_ covers
  intro order _ within
  split
  · exact ⟨within.symbol, within.side, within.quantity, within.price⟩
  · exact within

theorem QueueCovered.modifyOrder (covered : system.QueueCovered)
    {orderId : UInt64} {newPrice : Rat} {newQuantity : UInt64}
    (kept : system.KeepsTerms (.modifyOrder orderId newPrice newQuantity)) :
    (system.modifyOrder orderId newPrice newQuantity).QueueCovered := by
  apply covered.of_orders
  intro request member asks covers
  refine covers_of_map (system.orderManager.changePending_orders ..) ?_ covers
  intro order stored within
  split
  next modified =>
      rw [modified.1] at stored
      exact kept order stored modified.2 request member asks modified.1
  next => exact within

theorem QueueCovered.submitOrder (covered : system.QueueCovered)
    {request : ExecutionRequest}
    (kept : system.KeepsTerms (.submitOrder request)) :
    (system.submitOrder request).QueueCovered where
  covered other member asks := by
    simp only [System.submitOrder, untraded, List.mem_append,
      List.mem_singleton] at member
    rcases member with (queued | rfl) | inHand
    · exact covered.covered other (List.mem_append_left _ queued) asks
    · exact kept asks
    · exact covered.covered other (List.mem_append_right _ inHand) asks
  executing := covered.executing

theorem QueueCovered.simulateOrderExecution (covered : system.QueueCovered)
    (stepped : system.simulateOrderExecution = some next) :
    next.QueueCovered := by
  obtain ⟨request, latestTick, stage, asks, rfl⟩ :=
    simulateOrderExecution_eq_some.mp stepped
  have same : system.untraded =
      system.executionQueue ++
        (LoopStage.executed request latestTick).untraded := by
    rw [untraded, stage]
    rfl
  refine ⟨fun other member others => ?_, fun other tick executing => ?_⟩
  · have covers := covered.covered other (same ▸ member) others
    refine covers_of_map
      (system.orderManager.simulateOrderExecution_orders ..) ?_ covers
    intro order _ within
    split
    · exact ⟨within.symbol, within.side, within.quantity, within.price⟩
    · exact within
  · cases executing
    rintro zero
    rw [zero] at asks
    exact absurd asks (by decide)

theorem QueueCovered.step (covered : system.QueueCovered) {action : Action}
    (kept : system.KeepsTerms action)
    (stepped : system.step action = some next) : next.QueueCovered := by
  cases action with
  | placeOrder order =>
      cases stepped
      exact covered.placeOrder kept
  | cancelOrder orderId =>
      cases stepped
      exact covered.cancelOrder orderId
  | modifyOrder orderId newPrice newQuantity =>
      cases stepped
      exact covered.modifyOrder kept
  | submitOrder request =>
      cases stepped
      exact covered.submitOrder kept
  | publishTick tick =>
      cases stepped
      exact ⟨covered.covered, covered.executing⟩
  | publishOrderBook book =>
      cases stepped
      exact ⟨covered.covered, covered.executing⟩
  | takeRequest request =>
      obtain ⟨stage, top, rfl⟩ := takeRequest_eq_some.mp stepped
      refine covered.of_subset rfl ?_ (by simp)
      intro other member
      simp only [untraded, LoopStage.untraded, stage, List.append_nil,
        List.mem_append, List.mem_singleton] at member ⊢
      rcases member with kept | rfl
      · exact List.mem_of_mem_erase kept
      · exact top.1
  | getLatestTick =>
      obtain ⟨request, stage, rfl⟩ := getLatestTick_eq_some.mp stepped
      refine covered.of_subset rfl ?_ (by simp)
      simp [untraded, LoopStage.untraded, stage]
  | simulateOrderExecution => exact covered.simulateOrderExecution stepped
  | simulateTrade executedAt =>
      obtain ⟨request, latestTick, stage, rfl⟩ :=
        simulateTrade_eq_some.mp stepped
      refine ⟨fun other member asks => ?_, by simp⟩
      apply covered.covered other _ asks
      simp only [untraded, LoopStage.untraded, List.append_nil] at member
      exact List.mem_append_left _ member
  | recordLatency latency =>
      obtain ⟨request, latestTick, _, rfl⟩ := recordLatency_eq_some.mp stepped
      refine covered.of_subset rfl ?_ (by simp [finishRequest])
      intro other member
      simp only [untraded, finishRequest, LoopStage.untraded,
        List.append_nil] at member
      exact List.mem_append_left _ member

private theorem trades_of_step {system next : System} {action : Action}
    (other : ∀ executedAt, action ≠ .simulateTrade executedAt)
    (stepped : system.step action = some next) :
    next.orderManager.trades = system.orderManager.trades := by
  cases action with
  | placeOrder | submitOrder | publishTick | publishOrderBook =>
      cases stepped
      rfl
  | cancelOrder key =>
      cases stepped
      exact system.orderManager.cancelOrder_trades key
  | modifyOrder key newPrice newQuantity =>
      cases stepped
      exact system.orderManager.modifyOrder_trades key newPrice newQuantity
  | takeRequest request =>
      obtain ⟨_, _, rfl⟩ := takeRequest_eq_some.mp stepped
      rfl
  | getLatestTick =>
      obtain ⟨_, _, rfl⟩ := getLatestTick_eq_some.mp stepped
      rfl
  | simulateOrderExecution =>
      obtain ⟨request, _, _, _, rfl⟩ :=
        simulateOrderExecution_eq_some.mp stepped
      exact system.orderManager.simulateOrderExecution_trades ..
  | simulateTrade executedAt => exact absurd rfl (other executedAt)
  | recordLatency latency =>
      obtain ⟨_, _, _, rfl⟩ := recordLatency_eq_some.mp stepped
      rfl

/-- What is appended is the trade of a request in hand. -/
theorem QueueCovered.appendsHonoured (covered : system.QueueCovered)
    (action : Action) : system.AppendsHonoured action := by
  intro next trade stepped appended
  by_cases append : ∃ executedAt, action = .simulateTrade executedAt
  · obtain ⟨executedAt, rfl⟩ := append
    obtain ⟨request, latestTick, stage, rfl⟩ :=
      simulateTrade_eq_some.mp stepped
    have covers : system.orderManager.Covers request := by
      apply covered.covered
      · rw [untraded, stage]
        exact List.mem_append_right _ List.mem_cons_self
      · exact covered.executing request latestTick stage
    cases List.append_cancel_left appended
    exact covers.honours latestTick executedAt
  · rw [trades_of_step (fun executedAt same => append ⟨executedAt, same⟩)
      stepped] at appended
    simp at appended

end Preserved

/-- In every run whose calls keep the requests within their orders' terms, all
trades honour their orders' current terms. -/
theorem trades_honoured_of_kept_terms (marketData : MarketDataHandler)
    (actions : List Action)
    (kept : (machine marketData).Along KeepsTerms (init marketData) actions) :
    (machine marketData).Along AppendsHonoured (init marketData) actions :=
  Library.Machine.along_of_preserves QueueCovered
    (queueCovered_init marketData) kept
    (fun _ action covered _ => covered.appendsHonoured action)
    fun _ _ _ covered kept stepped => covered.step kept stepped

private def subscribedHandler : MarketDataHandler :=
  MarketDataHandler.init.subscribe "AAPL" 0

private def bid : Order := signalOrder "AAPL" .buy 100

/-- A modify to 150 at a price of 101 while the request is queued. -/
def loosenedWhileQueued : List Action :=
  [.publishTick (simulatedTick 100), .placeOrder bid,
    .submitOrder (requestFor 1000 bid default), .modifyOrder 1000 101 150,
    .takeRequest (requestFor 1000 bid default), .getLatestTick,
    .simulateOrderExecution, .simulateTrade default, .recordLatency 0]

theorem trades_honoured_of_loosened_terms :
    ((machine subscribedHandler).run (init subscribedHandler)
        loosenedWhileQueued).map (fun system =>
          system.orderManager.trades.map Trade.price) = some [100] ∧
      (machine subscribedHandler).Along AppendsHonoured
        (init subscribedHandler) loosenedWhileQueued :=
  ⟨by decide +kernel,
    trades_honoured_of_kept_terms subscribedHandler loosenedWhileQueued
      (by decide +kernel)⟩

/-- A modify to 50 at a price of 90 that succeeds while the request, a copy of
the old terms, is queued. -/
def modifiedWhileQueued : List Action :=
  [.publishTick (simulatedTick 100), .placeOrder bid,
      .submitOrder (requestFor 1000 bid default), .modifyOrder 1000 90 50,
      .takeRequest (requestFor 1000 bid default), .getLatestTick,
      .simulateOrderExecution] ++
    [.simulateTrade default, .recordLatency 0]

theorem modify_does_not_govern_trade :
    ¬ (machine subscribedHandler).Along AppendsHonoured
      (init subscribedHandler) modifiedWhileQueued := by
  intro honoured
  have atAppend := ((Library.Machine.along_append rfl).mp honoured).2.1
  have honours := atAppend _ _ rfl rfl
  revert honours
  decide +kernel

end System

end TradingBot
