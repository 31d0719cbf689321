import TradingBot.Bot.Pipeline

namespace TradingBot

open DemoStrategyListener Library

/-! What `getTotalOrdersPlaced` and `getTotalTradesExecuted` count in the wired
system. -/

namespace System

structure Counted (system : System) : Prop where
  orders : system.orderManager.totalOrdersPlaced + 1000 =
    system.orderManager.orderIdCounter
  trades : system.orderManager.totalTradesExecuted =
    UInt64.ofNat system.orderManager.trades.length

theorem counted_init (marketData : MarketDataHandler) :
    (init marketData).Counted where
  orders := rfl
  trades := rfl

/-- What a step does to the counted members: one order more, one trade more,
or neither. -/
inductive Counts (manager next : OrderManager) : Prop
  | placed (counter : next.orderIdCounter = manager.orderIdCounter + 1)
      (orders : next.totalOrdersPlaced = manager.totalOrdersPlaced + 1)
      (total : next.totalTradesExecuted = manager.totalTradesExecuted)
      (trades : next.trades = manager.trades)
  | traded (trade : Trade)
      (counter : next.orderIdCounter = manager.orderIdCounter)
      (orders : next.totalOrdersPlaced = manager.totalOrdersPlaced)
      (total : next.totalTradesExecuted = manager.totalTradesExecuted + 1)
      (trades : next.trades = manager.trades ++ [trade])
  | kept (counter : next.orderIdCounter = manager.orderIdCounter)
      (orders : next.totalOrdersPlaced = manager.totalOrdersPlaced)
      (total : next.totalTradesExecuted = manager.totalTradesExecuted)
      (trades : next.trades = manager.trades)

theorem counts_changePending (manager : OrderManager) (orderId : UInt64)
    (change : Order → Order) :
    Counts manager (manager.changePending orderId change).manager := by
  unfold OrderManager.changePending
  split
  next => exact .kept rfl rfl rfl rfl
  next =>
      split
      next => exact .kept rfl rfl rfl rfl
      next => exact .kept rfl rfl rfl rfl

theorem counts_simulateOrderExecution (manager : OrderManager)
    (orderId : UInt64) (price : Rat) (quantity : UInt64) :
    Counts manager
      (manager.simulateOrderExecution orderId price quantity).manager := by
  unfold OrderManager.simulateOrderExecution
  split
  next => exact .kept rfl rfl rfl rfl
  next => exact .kept rfl rfl rfl rfl

theorem counts_step {system next : System} {action : Action}
    (stepped : system.step action = some next) :
    Counts system.orderManager next.orderManager := by
  cases action with
  | placeOrder order =>
      cases stepped
      exact .placed rfl rfl rfl rfl
  | cancelOrder orderId =>
      cases stepped
      exact counts_changePending _ _ _
  | modifyOrder orderId newPrice newQuantity =>
      cases stepped
      exact counts_changePending _ _ _
  | submitOrder request =>
      cases stepped
      exact .kept rfl rfl rfl rfl
  | publishTick tick =>
      cases stepped
      exact .kept rfl rfl rfl rfl
  | publishOrderBook book =>
      cases stepped
      exact .kept rfl rfl rfl rfl
  | takeRequest request =>
      obtain ⟨_, _, rfl⟩ := takeRequest_eq_some.mp stepped
      exact .kept rfl rfl rfl rfl
  | getLatestTick =>
      obtain ⟨_, _, rfl⟩ := getLatestTick_eq_some.mp stepped
      exact .kept rfl rfl rfl rfl
  | simulateOrderExecution =>
      obtain ⟨_, _, _, _, rfl⟩ := simulateOrderExecution_eq_some.mp stepped
      exact counts_simulateOrderExecution _ _ _ _
  | simulateTrade executedAt =>
      obtain ⟨request, latestTick, _, rfl⟩ := simulateTrade_eq_some.mp stepped
      exact .traded _ rfl rfl rfl rfl
  | recordLatency latency =>
      obtain ⟨_, _, _, rfl⟩ := recordLatency_eq_some.mp stepped
      exact .kept rfl rfl rfl rfl

theorem Counted.step {system next : System} {action : Action}
    (counted : system.Counted) (stepped : system.step action = some next) :
    next.Counted := by
  obtain ⟨orders, trades⟩ := counted
  cases counts_step stepped with
  | placed counter placed total same =>
      refine ⟨?_, ?_⟩
      · rw [placed, counter, ← orders]
        ac_rfl
      · rw [total, same, trades]
  | traded trade counter placed total appended =>
      refine ⟨?_, ?_⟩
      · rw [placed, counter, orders]
      · rw [total, appended, trades, List.length_append, List.length_singleton,
          UInt64.ofNat_add]
        rfl
  | kept counter placed total same =>
      refine ⟨?_, ?_⟩
      · rw [placed, counter, orders]
      · rw [total, same, trades]

end System

namespace Bot

theorem counted_of_reachable {bot : Bot} (reached : machine.Reachable bot) :
    bot.system.Counted :=
  Machine.reachable_preserves System.Counted (System.counted_init _)
    (system_reachable reached)
    fun _ _ _ counted stepped => counted.step stepped

/-- The number of orders is the number of signals acted on. -/
theorem totalOrdersPlaced_toNat {bot : Bot} (reached : machine.Reachable bot) :
    bot.system.orderManager.totalOrdersPlaced.toNat =
      (signals (bot.feed.handled bot.published)).length := by
  have staged := (Pipelined.of_reachable reached).staged
  have counted := (counted_of_reachable reached).orders
  have few := staged.few
  have same : bot.system.orderManager.totalOrdersPlaced =
      UInt64.ofNat (signals (bot.feed.handled bot.published)).length := by
    rw [staged.counter, orderIdAt, Nat.add_comm, UInt64.ofNat_add] at counted
    exact (UInt64.add_left_inj _).mp counted
  rw [same, UInt64.toNat_ofNat']
  exact Nat.mod_eq_of_lt (by omega)

theorem length_settledRequests {bot : Bot} (reached : machine.Reachable bot) :
    bot.system.settledRequests.length =
      bot.system.orderManager.trades.length :=
  (Pipelined.of_reachable reached).staged.settled.length_eq

theorem length_trades_le {bot : Bot} (reached : machine.Reachable bot) :
    bot.system.orderManager.trades.length ≤
      (signals (bot.feed.handled bot.published)).length := by
  have staged := (Pipelined.of_reachable reached).staged
  rw [← length_settledRequests reached]
  have placed := staged.requests.length_eq
  have among := (Staged.settled_sublist bot.system
    bot.feed.request?.toList).length_le
  rw [placed] at among
  simpa [requestsOf] using among

theorem totalTradesExecuted_toNat {bot : Bot}
    (reached : machine.Reachable bot) :
    bot.system.orderManager.totalTradesExecuted.toNat =
      bot.system.orderManager.trades.length := by
  have few := (Pipelined.of_reachable reached).staged.few
  have within := length_trades_le reached
  rw [(counted_of_reachable reached).trades, UInt64.toNat_ofNat']
  exact Nat.mod_eq_of_lt (by omega)

/-- Counters and trades only grow. -/
structure Grows (bot next : Bot) : Prop where
  orders : bot.system.orderManager.totalOrdersPlaced.toNat ≤
    next.system.orderManager.totalOrdersPlaced.toNat
  trades : bot.system.orderManager.trades <+: next.system.orderManager.trades

theorem Grows.refl (bot : Bot) : bot.Grows bot :=
  ⟨le_rfl, List.prefix_refl _⟩

theorem grows_step {bot next : Bot} {action : BotAction}
    (few : bot.system.orderManager.totalOrdersPlaced.toNat ≤ maxTrades)
    (stepped : bot.step action = some next) : bot.Grows next := by
  have small : maxTrades = 5 := rfl
  rcases step_projects stepped with same | ⟨shared, moved⟩
  · exact ⟨same ▸ le_rfl, same ▸ List.prefix_refl _⟩
  · cases System.counts_step moved with
    | placed _ placed _ same =>
        refine ⟨?_, same ▸ List.prefix_refl _⟩
        rw [placed, UInt64.toNat_add]
        simp
        omega
    | traded _ _ placed _ appended =>
        exact ⟨placed ▸ le_rfl, appended ▸ List.prefix_append _ _⟩
    | kept _ placed _ same =>
        exact ⟨placed ▸ le_rfl, same ▸ List.prefix_refl _⟩

end Bot

end TradingBot
