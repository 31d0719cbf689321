import TradingBot.System
import Mathlib.Algebra.GroupWithZero.Nat

namespace TradingBot

/-! The order store against the trade history. -/

def OrderManager.tradedQuantity (manager : OrderManager) (orderId : UInt64) :
    Nat :=
  ((manager.tradesOf orderId).map fun trade => trade.quantity.toNat).sum

theorem OrderManager.tradedQuantity_simulateTrade (manager : OrderManager)
    (trade : Trade) (orderId : UInt64) :
    (manager.simulateTrade trade).tradedQuantity orderId =
      manager.tradedQuantity orderId +
        if trade.orderId = orderId then trade.quantity.toNat else 0 := by
  rw [tradedQuantity, tradesOf_simulateTrade, List.map_append, List.sum_append]
  split <;> simp [tradedQuantity]

/-- Every field of an order that an execution writes agrees with the quantity
executed for it. -/
structure Reconciled (order : Order) (executed : Nat) : Prop where
  filledQuantity : order.filledQuantity.toNat = executed
  bounded : executed ≤ order.quantity.toNat
  filled : order.status = .filled ↔ executed = order.quantity.toNat
  partialFill : order.status = .partialFill →
    0 < executed ∧ executed < order.quantity.toNat

def LoopStage.Between : LoopStage → Prop
  | .waiting => True
  | .taken _ => True
  | _ => False

/-- The quantity the order store already counts for an order while the trade
history does not. -/
def LoopStage.unrecorded (orderId : UInt64) : LoopStage → Nat
  | .executed request _ =>
      if request.orderId = orderId then request.quantity.toNat else 0
  | _ => 0

namespace System

/-- In a state between two executions every order reconciles with the trades
that carry its id. -/
def Reconciles (system : System) : Prop :=
  system.loop.Between →
    ∀ (orderId : UInt64) (order : Order),
      system.orderManager.orders[orderId]? = some order →
        Reconciled order (system.orderManager.tradedQuantity order.orderId)

/-- The clients' discipline: fresh orders are unfilled and not empty, a modify
leaves some quantity, and requests name placed orders. -/
def Disciplined (system : System) : Action → Prop
  | .placeOrder order => order.filledQuantity = 0 ∧ 0 < order.quantity
  | .modifyOrder _ _ newQuantity => 0 < newQuantity
  | .submitOrder request =>
      0 < request.quantity ∧
        request.orderId ∈ system.orderManager.orders
  | _ => True

/-- An execution finds its order without an earlier one and fits into the
order's quantity; a placement (once the counter has wrapped around 2^64) does
not reuse an id with executions. -/
def FirstFillFits (system : System) : Action → Prop
  | .placeOrder _ =>
      system.orderManager.tradedQuantity system.orderManager.orderIdCounter +
        system.loop.unrecorded system.orderManager.orderIdCounter = 0
  | .simulateOrderExecution =>
      ∀ request ∈ system.loop.request?,
        ∀ order ∈ system.orderManager.orders[request.orderId]?,
          order.filledQuantity = 0 ∧ request.quantity ≤ order.quantity
  | _ => True

instance (system : System) : DecidablePred system.Disciplined
  | .placeOrder _ | .submitOrder _ => inferInstanceAs (Decidable (_ ∧ _))
  | .modifyOrder _ _ _ => inferInstanceAs (Decidable (_ < _))
  | .cancelOrder _ | .publishTick _ | .publishOrderBook _ | .takeRequest _
  | .getLatestTick | .simulateOrderExecution | .simulateTrade _
  | .recordLatency _ => inferInstanceAs (Decidable True)

instance (system : System) : DecidablePred system.FirstFillFits
  | .placeOrder _ => inferInstanceAs (Decidable (_ = _))
  | .simulateOrderExecution =>
      inferInstanceAs (Decidable (∀ request ∈ system.loop.request?,
        ∀ order ∈ system.orderManager.orders[request.orderId]?, _ ∧ _))
  | .cancelOrder _ | .modifyOrder _ _ _ | .submitOrder _ | .publishTick _
  | .publishOrderBook _ | .takeRequest _ | .getLatestTick | .simulateTrade _
  | .recordLatency _ => inferInstanceAs (Decidable True)

def executedQuantity (system : System) (orderId : UInt64) : Nat :=
  system.orderManager.tradedQuantity orderId + system.loop.unrecorded orderId

private structure Accounted (counted : UInt64 → Nat) (orderId : UInt64)
    (order : Order) : Prop extends Reconciled order (counted orderId) where
  identified : order.orderId = orderId
  unexecuted : order.status = .pending → counted orderId = 0

private theorem Accounted.congr
    {first second : UInt64 → Nat} (accounted : Accounted first orderId order)
    (same : second orderId = first orderId) :
    Accounted second orderId order where
  toReconciled := same ▸ accounted.toReconciled
  identified := accounted.identified
  unexecuted := fun pending => same.trans (accounted.unexecuted pending)

private theorem accounted_executedOrder {order : Order}
    {executedQuantity : UInt64} {counted : UInt64 → Nat}
    (identified : order.orderId = orderId)
    (positive : 0 < executedQuantity)
    (fits : executedQuantity ≤ order.quantity)
    (first : counted orderId = executedQuantity.toNat) :
    Accounted counted orderId
      (OrderManager.executedOrder order executedQuantity) := by
  have positive : 0 < executedQuantity.toNat := positive
  have fits : executedQuantity.toNat ≤ order.quantity.toNat := fits
  exact
    { filledQuantity := first.symm
      bounded := first ▸ fits
      filled := by
        rw [first, UInt64.toNat_inj]
        simp [OrderManager.executedOrder]
      partialFill := by
        rw [first]
        simp only [OrderManager.executedOrder, ← UInt64.toNat_inj]
        split
        next => simp
        next less => exact fun _ => ⟨positive, by omega⟩
      identified := identified
      unexecuted := by
        simp only [OrderManager.executedOrder]
        split <;> simp }

/-- Every stored order reconciles once the execution under way is counted. -/
private def LedgerInvariant (system : System) : Prop :=
  ∀ (orderId : UInt64) (order : Order),
    system.orderManager.orders[orderId]? = some order →
      Accounted system.executedQuantity orderId order

private theorem LedgerInvariant.reconciles (invariant : LedgerInvariant system) :
    system.Reconciles := by
  intro between orderId order stored
  have accounted := invariant orderId order stored
  have settled : system.loop.unrecorded orderId = 0 := by
    cases stage : system.loop <;> simp [stage, LoopStage.Between] at between <;> rfl
  have reconciled := accounted.toReconciled
  rw [executedQuantity, settled, Nat.add_zero] at reconciled
  rwa [accounted.identified]

private theorem LedgerInvariant.transport (invariant : LedgerInvariant system)
    {next : System}
    (stored : next.orderManager.orders = system.orderManager.orders)
    (executed : ∀ orderId,
      next.executedQuantity orderId = system.executedQuantity orderId) :
    LedgerInvariant next := by
  intro orderId order found
  rw [stored] at found
  rw [show next.executedQuantity = system.executedQuantity from
    funext executed]
  exact invariant orderId order found

private theorem LedgerInvariant.changePending
    (invariant : LedgerInvariant system) {key : UInt64}
    {change : Order → Order}
    (identified : ∀ order, (change order).orderId = order.orderId)
    (filledQuantity : ∀ order,
      (change order).filledQuantity = order.filledQuantity)
    (status : ∀ order, order.status = .pending →
      (change order).status = .pending ∨ (change order).status = .cancelled)
    (quantity : ∀ order, 0 < order.quantity.toNat →
      0 < (change order).quantity.toNat) :
    LedgerInvariant { system with
      orderManager := (system.orderManager.changePending key change).manager } := by
  intro orderId order found
  rw [OrderManager.changePending_orders] at found
  obtain ⟨previous, stored, rfl⟩ := Option.map_eq_some_iff.mp found
  have accounted := invariant orderId previous stored
  have executed : executedQuantity { system with
      orderManager := (system.orderManager.changePending key change).manager } =
        system.executedQuantity := by
    funext orderId
    simp [executedQuantity, OrderManager.tradedQuantity, OrderManager.tradesOf]
  rw [executed]
  split
  next changed =>
      have zero := accounted.unexecuted changed.2
      have positive : 0 < previous.quantity.toNat := by
        have unfilled := mt accounted.filled.mpr (by simp [changed.2])
        omega
      have positive := quantity previous positive
      exact
        { filledQuantity := by
            rw [filledQuantity]
            exact accounted.filledQuantity
          bounded := by omega
          filled := by
            have unfilled : (change previous).status ≠ .filled := by
              rcases status previous changed.2 with new | new
              · simp [new]
              · simp [new]
            simp only [unfilled, false_iff]
            omega
          partialFill := by
            rcases status previous changed.2 with new | new
            · simp [new]
            · simp [new]
          identified := (identified previous).trans accounted.identified
          unexecuted := fun _ => zero }
  next => exact accounted

private theorem LedgerInvariant.placeOrder (invariant : LedgerInvariant system)
    {placed : Order} (unfilled : placed.filledQuantity = 0)
    (positive : 0 < placed.quantity)
    (fresh : system.executedQuantity system.orderManager.orderIdCounter = 0) :
    LedgerInvariant (system.placeOrder placed) := by
  intro orderId order found
  simp only [System.placeOrder, OrderManager.placeOrder_orders] at found
  split at found
  next same =>
      subst same
      cases found
      have unexecuted : executedQuantity (system.placeOrder placed)
          system.orderManager.orderIdCounter = 0 := fresh
      have positive : 0 < placed.quantity.toNat := positive
      exact
        { filledQuantity := by simp [unexecuted, unfilled]
          bounded := by simp [unexecuted]
          filled := by simp [unexecuted]; omega
          partialFill := by simp
          identified := rfl
          unexecuted := fun _ => unexecuted }
  next => exact invariant orderId order found

private theorem LedgerInvariant.simulateOrderExecution
    (invariant : LedgerInvariant system) {next : System}
    (fits : system.FirstFillFits .simulateOrderExecution)
    (stepped : system.simulateOrderExecution = some next) :
    LedgerInvariant next := by
  obtain ⟨request, latestTick, stage, positive, rfl⟩ :=
    simulateOrderExecution_eq_some.mp stepped
  intro orderId order found
  simp only [OrderManager.simulateOrderExecution_orders] at found
  obtain ⟨previous, stored, rfl⟩ := Option.map_eq_some_iff.mp found
  have accounted := invariant orderId previous stored
  have settled : system.executedQuantity orderId =
      system.orderManager.tradedQuantity orderId := by
    simp [executedQuantity, stage, LoopStage.unrecorded]
  split
  next same =>
      subst same
      obtain ⟨unfilled, fits⟩ := fits request
        (by simp [stage, LoopStage.request?]) previous stored
      have unexecuted := accounted.filledQuantity
      rw [unfilled, settled] at unexecuted
      exact accounted_executedOrder accounted.identified positive fits
        (by simp [executedQuantity, LoopStage.unrecorded,
          OrderManager.tradedQuantity, OrderManager.tradesOf]
            at unexecuted ⊢; omega)
  next other =>
      apply accounted.congr
      rw [settled]
      simp [executedQuantity, LoopStage.unrecorded, Ne.symm other,
        OrderManager.tradedQuantity, OrderManager.tradesOf]

private theorem LedgerInvariant.step (invariant : LedgerInvariant system)
    {action : Action} {next : System}
    (disciplined : system.Disciplined action)
    (fits : system.FirstFillFits action)
    (stepped : system.step action = some next) : LedgerInvariant next := by
  cases action with
  | placeOrder placed =>
      cases stepped
      exact invariant.placeOrder disciplined.1 disciplined.2 fits
  | cancelOrder key =>
      cases stepped
      exact invariant.changePending (fun _ => rfl) (fun _ => rfl)
        (fun _ _ => .inr rfl) (fun _ positive => positive)
  | modifyOrder key newPrice newQuantity =>
      cases stepped
      exact invariant.changePending (fun _ => rfl) (fun _ => rfl)
        (fun _ pending => .inl pending) (fun _ _ => disciplined)
  | submitOrder request =>
      cases stepped
      exact invariant.transport rfl fun _ => rfl
  | publishTick tick =>
      cases stepped
      exact invariant.transport rfl fun _ => rfl
  | publishOrderBook book =>
      cases stepped
      exact invariant.transport rfl fun _ => rfl
  | takeRequest request =>
      obtain ⟨stage, _, rfl⟩ := takeRequest_eq_some.mp stepped
      refine invariant.transport rfl ?_
      intro orderId
      simp [executedQuantity, stage, LoopStage.unrecorded]
  | getLatestTick =>
      obtain ⟨request, stage, rfl⟩ := getLatestTick_eq_some.mp stepped
      refine invariant.transport rfl ?_
      intro orderId
      simp [executedQuantity, stage, LoopStage.unrecorded]
  | simulateOrderExecution =>
      exact invariant.simulateOrderExecution fits stepped
  | simulateTrade executedAt =>
      obtain ⟨request, latestTick, stage, rfl⟩ :=
        simulateTrade_eq_some.mp stepped
      refine invariant.transport rfl ?_
      intro orderId
      rw [executedQuantity, executedQuantity, stage,
        OrderManager.tradedQuantity_simulateTrade]
      rfl
  | recordLatency latency =>
      obtain ⟨request, latestTick, stage, rfl⟩ :=
        recordLatency_eq_some.mp stepped
      refine invariant.transport rfl ?_
      intro orderId
      rcases stage with stage | ⟨stage, _⟩
      · simp [executedQuantity, stage, LoopStage.unrecorded, finishRequest]
      · simp [executedQuantity, stage, LoopStage.unrecorded, finishRequest]

/-- In every disciplined run whose executions are all first ones that fit, the
order store and the trade history reconcile in every state. -/
theorem ledger_reconciles (marketData : MarketDataHandler)
    (actions : List Action)
    (disciplined :
      (machine marketData).Along Disciplined (init marketData) actions)
    (fits :
      (machine marketData).Along FirstFillFits (init marketData) actions) :
    (machine marketData).Throughout Reconciles (init marketData) actions :=
  Library.Machine.throughout_of_preserves LedgerInvariant
    (by simp [LedgerInvariant, init])
    (disciplined.and fits) (fun _ => LedgerInvariant.reconciles)
    fun _ _ _ invariant conditions stepped =>
      invariant.step conditions.1 conditions.2 stepped

private def limitOrder : Order := signalOrder "AAPL" .buy 100

private def partialRequest (quantity : UInt64) : ExecutionRequest :=
  { requestFor 1000 limitOrder default with quantity }

private def executionOf (request : ExecutionRequest) : List Action :=
  [.takeRequest request, .getLatestTick, .simulateOrderExecution,
    .simulateTrade default, .recordLatency 0]

theorem single_partial_fill_reconciles :
    (machine MarketDataHandler.init).Throughout Reconciles
      (init MarketDataHandler.init)
      ([.placeOrder limitOrder, .modifyOrder 1000 99 80,
        .submitOrder (partialRequest 60)] ++ executionOf (partialRequest 60)) :=
  ledger_reconciles _ _ (by decide +kernel) (by decide +kernel)

def twoPartialFills : List Action :=
  [.placeOrder limitOrder, .submitOrder (partialRequest 40),
      .submitOrder (partialRequest 60)] ++
    executionOf (partialRequest 40) ++ executionOf (partialRequest 60)

theorem second_partial_fill_replaces_first :
    ¬ (machine MarketDataHandler.init).Throughout Reconciles
      (init MarketDataHandler.init) twoPartialFills := by
  intro reconciles
  have reconciled := reconciles.final rfl trivial 1000 _ rfl
  have filledQuantity := reconciled.filledQuantity
  revert filledQuantity
  decide +kernel

end System

end TradingBot
