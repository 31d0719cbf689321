import TradingBot.System
import Mathlib.Data.List.Nodup

namespace TradingBot

/-! Trade ids, which `executeOrder` copies from the order ids. -/

namespace OrderManager

/-- The ids are distinct, and each looks up its own trade. -/
structure IdentifiesTrades (manager : OrderManager) : Prop where
  distinct : (manager.getTradeHistory.map Trade.tradeId).Nodup
  found : ∀ trade ∈ manager.getTradeHistory,
    manager.getTrade trade.tradeId = some trade

theorem identifiesTrades_iff (manager : OrderManager) :
    manager.IdentifiesTrades ↔
      (manager.getTradeHistory.map Trade.tradeId).Nodup := by
  refine ⟨IdentifiesTrades.distinct, fun distinct => ⟨distinct, ?_⟩⟩
  intro trade member
  have present : (manager.getTrade trade.tradeId).isSome = true := by
    rw [getTrade, List.find?_isSome]
    exact ⟨trade, member, by simp⟩
  obtain ⟨first, found⟩ := Option.isSome_iff_exists.mp present
  have listed : first ∈ manager.getTradeHistory := List.mem_of_find?_eq_some found
  have same : first.tradeId = trade.tradeId := by
    simpa using List.find?_some found
  rw [found, List.inj_on_of_nodup_map distinct listed member same]

end OrderManager

/-- The request being executed, from its execution until it is done. -/
def LoopStage.filling? : LoopStage → Option ExecutionRequest
  | .executed request _ => some request
  | .traded request _ => some request
  | _ => none

/-- The request being executed, once its trade is in the history. -/
def LoopStage.recorded? : LoopStage → Option ExecutionRequest
  | .traded request _ => some request
  | _ => none

namespace System

/-- The requests that have left a trade: the ones executed with a positive
quantity, and the current one as soon as it has been recorded. -/
def recordedRequests (system : System) : List ExecutionRequest :=
  system.executed.filter (fun request => decide (0 < request.quantity)) ++
    system.loop.recorded?.toList

structure Recorded (system : System) : Prop where
  tradeIds : system.orderManager.trades.map Trade.tradeId =
    system.recordedRequests.map ExecutionRequest.orderId
  positive : ∀ request ∈ system.loop.filling?, 0 < request.quantity

theorem recorded_init (marketData : MarketDataHandler) :
    (init marketData).Recorded where
  tradeIds := rfl
  positive := by simp [init, LoopStage.filling?]

/-- Steps that neither record nor finish a request. -/
theorem Recorded.transport {system next : System} (recorded : system.Recorded)
    (trades : next.orderManager.trades = system.orderManager.trades)
    (executed : next.executed = system.executed)
    (kept : next.loop.recorded? = system.loop.recorded?)
    (positive : ∀ request ∈ next.loop.filling?, 0 < request.quantity) :
    next.Recorded where
  tradeIds := by
    rw [trades, recordedRequests, executed, kept]
    exact recorded.tradeIds
  positive := positive

theorem Recorded.finishRequest {system : System} (recorded : system.Recorded)
    {request : ExecutionRequest} {latestTick : MarketTick}
    (stage : system.loop = .traded request latestTick ∨
      system.loop = .quoted request latestTick ∧ request.quantity = 0)
    (latency : UInt64) : (system.finishRequest request latency).Recorded where
  tradeIds := by
    have same : (system.finishRequest request latency).recordedRequests =
        system.recordedRequests := by
      rcases stage with traded | ⟨quoted, zero⟩
      · have positive := recorded.positive request (by
          simp [traded, LoopStage.filling?])
        simp [recordedRequests, System.finishRequest, traded, positive,
          LoopStage.recorded?]
      · simp [recordedRequests, System.finishRequest, quoted, zero,
          LoopStage.recorded?]
    rw [same]
    exact recorded.tradeIds
  positive := by simp [System.finishRequest, LoopStage.filling?]

theorem Recorded.step {system next : System} {action : Action}
    (recorded : system.Recorded) (stepped : system.step action = some next) :
    next.Recorded := by
  cases action with
  | placeOrder | submitOrder | publishTick | publishOrderBook =>
      cases stepped
      exact recorded.transport rfl rfl rfl recorded.positive
  | cancelOrder key =>
      cases stepped
      exact recorded.transport (system.orderManager.cancelOrder_trades key)
        rfl rfl recorded.positive
  | modifyOrder key newPrice newQuantity =>
      cases stepped
      exact recorded.transport
        (system.orderManager.modifyOrder_trades key newPrice newQuantity)
        rfl rfl recorded.positive
  | takeRequest request =>
      obtain ⟨stage, _, rfl⟩ := takeRequest_eq_some.mp stepped
      refine recorded.transport rfl rfl ?_ (by simp [LoopStage.filling?])
      rw [stage]
      rfl
  | getLatestTick =>
      obtain ⟨request, stage, rfl⟩ := getLatestTick_eq_some.mp stepped
      refine recorded.transport rfl rfl ?_ (by simp [LoopStage.filling?])
      rw [stage]
      rfl
  | simulateOrderExecution =>
      obtain ⟨request, latestTick, stage, positive, rfl⟩ :=
        simulateOrderExecution_eq_some.mp stepped
      refine recorded.transport
        (system.orderManager.simulateOrderExecution_trades ..) rfl ?_ ?_
      · rw [stage]
        rfl
      · intro filling same
        cases same
        exact positive
  | simulateTrade executedAt =>
      obtain ⟨request, latestTick, stage, rfl⟩ :=
        simulateTrade_eq_some.mp stepped
      have before := recorded.tradeIds
      rw [recordedRequests, stage] at before
      have positive := recorded.positive request (by
        simp [stage, LoopStage.filling?])
      exact
        { tradeIds := by
            rw [OrderManager.simulateTrade_trades, List.map_append, before]
            simp [recordedRequests, LoopStage.recorded?, executedTrade]
          positive := by
            intro filling same
            cases same
            exact positive }
  | recordLatency latency =>
      obtain ⟨request, latestTick, stage, rfl⟩ :=
        recordLatency_eq_some.mp stepped
      exact recorded.finishRequest stage latency

/-- In every reachable state the trade ids identify the trades exactly if the
requests that left them were for different orders. -/
theorem identifiesTrades_iff_orders_distinct {marketData : MarketDataHandler}
    {system : System} (reached : (machine marketData).Reachable system) :
    system.orderManager.IdentifiesTrades ↔
      (system.recordedRequests.map ExecutionRequest.orderId).Nodup := by
  have recorded : system.Recorded :=
    Library.Machine.reachable_preserves Recorded (recorded_init marketData)
      reached fun _ _ _ recorded stepped => recorded.step stepped
  rw [OrderManager.identifiesTrades_iff, ← recorded.tradeIds]
  rfl

private def wholeBid : Order := signalOrder "AAPL" .buy 100

/-- A request of 50 for the placed order of 100. -/
private def halfOf (orderId : UInt64) : ExecutionRequest :=
  { requestFor orderId wholeBid default with quantity := 50 }

private def execution (request : ExecutionRequest) : List Action :=
  [.submitOrder request, .takeRequest request, .getLatestTick,
    .simulateOrderExecution, .simulateTrade default, .recordLatency 0]

private def twoOrders : List Action :=
  [.placeOrder wholeBid, .placeOrder wholeBid] ++ execution (halfOf 1000) ++
    execution (halfOf 1001)

private def twoHalves : List Action :=
  .placeOrder wholeBid :: execution (halfOf 1000) ++ execution (halfOf 1000)

theorem identifiesTrades_iff_orders_distinct_two_orders :
    ∃ system,
      (machine MarketDataHandler.init).run (init MarketDataHandler.init)
          twoOrders = some system ∧
        system.orderManager.trades.map Trade.tradeId = [1000, 1001] ∧
        system.orderManager.IdentifiesTrades := by
  have runs : ((machine MarketDataHandler.init).run
      (init MarketDataHandler.init) twoOrders).map (fun system =>
        (system.orderManager.trades.map Trade.tradeId,
          system.recordedRequests.map ExecutionRequest.orderId)) =
      some ([1000, 1001], [1000, 1001]) := by decide +kernel
  obtain ⟨system, ran, same⟩ := Option.map_eq_some_iff.mp runs
  obtain ⟨traded, recorded⟩ := Prod.ext_iff.mp same
  refine ⟨system, ran, traded, ?_⟩
  apply (identifiesTrades_iff_orders_distinct ⟨_, ran⟩).mpr
  rw [show system.recordedRequests.map ExecutionRequest.orderId =
    [1000, 1001] from recorded]
  decide

/-- An order executed in two halves leaves two trades with one id. -/
theorem two_halves_share_a_trade_id :
    ∃ system,
      (machine MarketDataHandler.init).run (init MarketDataHandler.init)
          twoHalves = some system ∧
        system.orderManager.trades.map Trade.tradeId = [1000, 1000] ∧
        ¬ system.orderManager.IdentifiesTrades := by
  refine ⟨_, rfl, by decide +kernel, fun identifies => ?_⟩
  have distinct := identifies.distinct
  revert distinct
  decide +kernel

end System

end TradingBot
