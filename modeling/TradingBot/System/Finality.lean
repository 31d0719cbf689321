import TradingBot.System

namespace TradingBot

/-! Terminal orders: `cancelOrder` and `modifyOrder` guard on `PENDING`, the
execution path does not guard at all. -/

/-- The order whose execution is recorded in the order store and not yet in
the trade history. -/
def LoopStage.midExecution : LoopStage → Option UInt64
  | .executed request _ => some request.orderId
  | _ => none

namespace System

/-- A stored order is final once it is cancelled, or filled by an
`executeOrder` that has also appended its trade. -/
def Final (system : System) (orderId : UInt64) : Prop :=
  ∃ order ∈ system.orderManager.orders[orderId]?,
    order.status = .cancelled ∨
      order.status = .filled ∧ system.loop.midExecution ≠ some orderId

instance (system : System) (orderId : UInt64) :
    Decidable (system.Final orderId) :=
  Option.decidableExistsMem _

/-- The order an unguarded step writes to: the id `placeOrder` hands out, and
the id of the request being executed. -/
def target (system : System) : Action → Option UInt64
  | .placeOrder _ => some system.orderManager.orderIdCounter
  | .simulateOrderExecution => system.loop.request?.map ExecutionRequest.orderId
  | .simulateTrade _ => system.loop.request?.map ExecutionRequest.orderId
  | _ => none

def SparesFinal (system : System) (action : Action) : Prop :=
  ∀ orderId ∈ system.target action, ¬ system.Final orderId

instance (system : System) (action : Action) :
    Decidable (system.SparesFinal action) :=
  Option.decidableForallMem _

/-- Along a run from the initial state, an order once final keeps every field
and gets no further trade. -/
def TerminalOrdersStayFinal (marketData : MarketDataHandler)
    (actions : List Action) : Prop :=
  ∀ before after, before ++ after <+: actions →
    ∀ system final,
      (machine marketData).run (init marketData) before = some system →
      (machine marketData).run system after = some final →
      ∀ orderId, system.Final orderId →
        final.orderManager.orders[orderId]? =
            system.orderManager.orders[orderId]? ∧
          final.orderManager.tradesOf orderId =
            system.orderManager.tradesOf orderId

private structure KeepsFinal (orderId : UInt64) (order : Order)
    (trades : List Trade) (system : System) : Prop where
  stored : system.orderManager.orders[orderId]? = some order
  recorded : system.orderManager.tradesOf orderId = trades
  settled : order.status = .cancelled ∨
    order.status = .filled ∧ system.loop.midExecution ≠ some orderId

private theorem KeepsFinal.final
    (keeps : KeepsFinal orderId order trades system) : system.Final orderId :=
  ⟨order, keeps.stored, keeps.settled⟩

private theorem KeepsFinal.not_pending
    (keeps : KeepsFinal orderId order trades system) :
    order.status ≠ .pending := by
  rcases keeps.settled with cancelled | ⟨filled, _⟩
  · simp [cancelled]
  · simp [filled]

private theorem KeepsFinal.transport
    (keeps : KeepsFinal orderId order trades system)
    {next : System}
    (stored : next.orderManager.orders[orderId]? =
      system.orderManager.orders[orderId]?)
    (recorded : next.orderManager.tradesOf orderId =
      system.orderManager.tradesOf orderId)
    (stage : next.loop.midExecution = some orderId →
      system.loop.midExecution = some orderId) :
    KeepsFinal orderId order trades next where
  stored := stored.trans keeps.stored
  recorded := recorded.trans keeps.recorded
  settled := by
    rcases keeps.settled with cancelled | ⟨filled, outside⟩
    · exact .inl cancelled
    · exact .inr ⟨filled, fun inside => outside (stage inside)⟩

private theorem KeepsFinal.changePending
    (keeps : KeepsFinal orderId order trades system)
    (key : UInt64) (change : Order → Order) :
    (system.orderManager.changePending key change).manager.orders[orderId]? =
      system.orderManager.orders[orderId]? := by
  rw [OrderManager.changePending_orders, keeps.stored]
  simp [keeps.not_pending]

private theorem KeepsFinal.step
    (keeps : KeepsFinal orderId order trades system)
    {action : Action} {next : System}
    (spares : system.SparesFinal action)
    (stepped : system.step action = some next) :
    KeepsFinal orderId order trades next := by
  cases action with
  | placeOrder placed =>
      cases stepped
      have fresh : orderId ≠ system.orderManager.orderIdCounter := by
        intro same
        subst same
        exact spares _ rfl keeps.final
      refine keeps.transport ?_ rfl id
      simp [placeOrder, OrderManager.placeOrder_orders, fresh]
  | cancelOrder key =>
      cases stepped
      refine keeps.transport (keeps.changePending key _) ?_ id
      simp [OrderManager.tradesOf, cancelOrder]
  | modifyOrder key newPrice newQuantity =>
      cases stepped
      refine keeps.transport (keeps.changePending key _) ?_ id
      simp [OrderManager.tradesOf, modifyOrder]
  | submitOrder request =>
      cases stepped
      exact keeps.transport rfl rfl id
  | publishTick tick =>
      cases stepped
      exact keeps.transport rfl rfl id
  | publishOrderBook book =>
      cases stepped
      exact keeps.transport rfl rfl id
  | takeRequest request =>
      obtain ⟨_, _, rfl⟩ := takeRequest_eq_some.mp stepped
      exact keeps.transport rfl rfl (by simp [LoopStage.midExecution])
  | getLatestTick =>
      obtain ⟨request, _, rfl⟩ := getLatestTick_eq_some.mp stepped
      exact keeps.transport rfl rfl (by simp [LoopStage.midExecution])
  | simulateOrderExecution =>
      obtain ⟨request, latestTick, stage, _, rfl⟩ :=
        simulateOrderExecution_eq_some.mp stepped
      have other : orderId ≠ request.orderId := by
        intro same
        subst same
        exact spares _ (by simp [target, stage, LoopStage.request?]) keeps.final
      refine keeps.transport ?_ ?_ ?_
      · simp [OrderManager.simulateOrderExecution_orders, other]
      · simp [OrderManager.tradesOf]
      · simp [LoopStage.midExecution, other.symm]
  | simulateTrade executedAt =>
      obtain ⟨request, latestTick, stage, rfl⟩ :=
        simulateTrade_eq_some.mp stepped
      have other : request.orderId ≠ orderId := by
        intro same
        subst same
        exact spares _ (by simp [target, stage, LoopStage.request?]) keeps.final
      refine keeps.transport rfl ?_ (by simp [LoopStage.midExecution])
      simp [OrderManager.tradesOf_simulateTrade, executedTrade, other]
  | recordLatency latency =>
      obtain ⟨request, latestTick, _, rfl⟩ :=
        recordLatency_eq_some.mp stepped
      exact keeps.transport rfl rfl
        (by simp [LoopStage.midExecution, finishRequest])

/-- In every run none of whose unguarded steps targets a final order, terminal
orders are final. -/
theorem terminal_orders_stay_final (marketData : MarketDataHandler)
    (actions : List Action)
    (spares : (machine marketData).Along SparesFinal (init marketData) actions) :
    TerminalOrdersStayFinal marketData actions := by
  intro before after initial system final reached ran orderId settled
  obtain ⟨rest, rfl⟩ := initial
  obtain ⟨order, stored, settled⟩ := settled
  rw [List.append_assoc, Library.Machine.along_append reached,
    Library.Machine.along_append ran] at spares
  have keeps := Library.Machine.run_preserves
    (KeepsFinal orderId order (system.orderManager.tradesOf orderId))
    ⟨stored, rfl, settled⟩ spares.2.1 ran
    fun _ _ _ keeps spares stepped => keeps.step spares stepped
  exact ⟨keeps.stored.trans stored.symm, keeps.recorded⟩

private def limitBuy : Order := signalOrder "AAPL" .buy 100

private def limitBuyRequest : ExecutionRequest :=
  requestFor 1000 limitBuy default

theorem filled_order_stays_filled :
    TerminalOrdersStayFinal MarketDataHandler.init
      [.placeOrder limitBuy, .submitOrder limitBuyRequest,
        .takeRequest limitBuyRequest, .getLatestTick, .simulateOrderExecution,
        .simulateTrade default, .recordLatency 0, .cancelOrder 1000,
        .modifyOrder 1000 99 50] :=
  terminal_orders_stay_final _ _ (by decide +kernel)

def cancelledWhileQueued : List Action :=
  [.placeOrder limitBuy, .submitOrder limitBuyRequest, .cancelOrder 1000,
    .takeRequest limitBuyRequest, .getLatestTick, .simulateOrderExecution,
    .simulateTrade default, .recordLatency 0]

theorem cancelled_order_executes :
    ¬ TerminalOrdersStayFinal MarketDataHandler.init cancelledWhileQueued := by
  intro stays
  have kept := stays (cancelledWhileQueued.take 3) (cancelledWhileQueued.drop 3)
    (by simp) _ _ rfl rfl 1000 (by decide +kernel)
  revert kept
  decide +kernel

end System

end TradingBot
