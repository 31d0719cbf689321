import TradingBot.OrderManager.Callbacks
import Mathlib.Data.List.Induction

namespace TradingBot

/-! What the callbacks are told, against the orders. -/

inductive OrderEvent where
  | call (call : OrderCall)
  | registerOrderCallback

/-- `logs` has what each callback has received, in the order of
registration. -/
structure Observed where
  manager : OrderManager
  logs : List (List Order)

/-- The order map that a log of received orders describes. -/
def replay (log : List Order) : OrderMap :=
  log.foldl (fun orders order => orders.insert order.orderId order) ∅

namespace Observed

def init (callbacks : Nat) : Observed where
  manager := OrderManager.init
  logs := List.replicate callbacks []

def notifyOrderChanged (logs : List (List Order)) (order : Order) :
    List (List Order) :=
  logs.map fun log => log ++ [order]

def apply (observed : Observed) : OrderEvent → Observed
  | .call call =>
      let performed := call.apply observed.manager
      { manager := performed.manager
        logs :=
          performed.notified.elim observed.logs
            (notifyOrderChanged observed.logs) }
  | .registerOrderCallback =>
      { observed with logs := observed.logs ++ [[]] }

def after (callbacks : Nat) (events : List OrderEvent) : Observed :=
  events.foldl apply (init callbacks)

end Observed

namespace OrderManager

/-- Every stored order carries its own key. -/
def Keyed (manager : OrderManager) : Prop :=
  ∀ (key : UInt64) (order : Order), manager.orders[key]? = some order →
    order.orderId = key

theorem keyed_init : init.Keyed := by
  intro key order found
  simp at found

/-- A call either keeps everything and notifies nobody, or stores one order
under its id and notifies with it. -/
def NotifiesWhatItStores (manager : OrderManager) (call : Call Result) : Prop :=
  (call.manager = manager ∧ call.notified = none) ∨
    ∃ order, call.notified = some order ∧
      call.manager.orders = manager.orders.insert order.orderId order

theorem placeOrder_notifies (manager : OrderManager) (order : Order) :
    manager.NotifiesWhatItStores (manager.placeOrder order) :=
  .inr ⟨_, rfl, rfl⟩

theorem Keyed.changePending_notifies {manager : OrderManager}
    (keyed : manager.Keyed) (orderId : UInt64) {change : Order → Order}
    (keepsId : ∀ order, (change order).orderId = order.orderId) :
    manager.NotifiesWhatItStores (manager.changePending orderId change) := by
  unfold changePending
  cases found : manager.orders[orderId]? with
  | none => exact .inl ⟨rfl, rfl⟩
  | some order =>
      dsimp only
      split
      next =>
          refine .inr ⟨change order, rfl, ?_⟩
          rw [keepsId, keyed orderId order found]
      next => exact .inl ⟨rfl, rfl⟩

theorem Keyed.simulateOrderExecution_notifies {manager : OrderManager}
    (keyed : manager.Keyed) (orderId : UInt64) (executionPrice : Rat)
    (executedQuantity : UInt64) :
    manager.NotifiesWhatItStores
      (manager.simulateOrderExecution orderId executionPrice
        executedQuantity) := by
  unfold simulateOrderExecution
  cases found : manager.orders[orderId]? with
  | none => exact .inl ⟨rfl, rfl⟩
  | some order =>
      have own : (executedOrder order executedQuantity).orderId = orderId :=
        keyed orderId order found
      refine .inr ⟨executedOrder order executedQuantity, rfl, ?_⟩
      rw [own]

theorem Keyed.apply_notifies {manager : OrderManager} (keyed : manager.Keyed)
    (call : OrderCall) : manager.NotifiesWhatItStores (call.apply manager) := by
  cases call with
  | placeOrder order => exact manager.placeOrder_notifies order
  | cancelOrder orderId =>
      exact keyed.changePending_notifies orderId fun _ => rfl
  | modifyOrder orderId newPrice newQuantity =>
      exact keyed.changePending_notifies orderId fun _ => rfl
  | simulateOrderExecution orderId executionPrice executedQuantity =>
      exact keyed.simulateOrderExecution_notifies orderId executionPrice
        executedQuantity

theorem Keyed.apply {manager : OrderManager} (keyed : manager.Keyed)
    (call : OrderCall) : (call.apply manager).manager.Keyed := by
  rcases keyed.apply_notifies call with ⟨same, _⟩ | ⟨stored, _, orders⟩
  · rw [same]
    exact keyed
  · intro key order found
    rw [orders, Library.getElem?_insert_eq_ite] at found
    split at found
    next own =>
        rw [← Option.some.inj found]
        exact own.symm
    next => exact keyed key order found

/-- The call reports failure, or finds no order. -/
def Fails (manager : OrderManager) (call : OrderCall) : Prop :=
  (call.apply manager).result = false ∨
    ∃ orderId ∈ call.target?, manager.orders[orderId]? = none

theorem changePending_of_fails {manager : OrderManager} {orderId : UInt64}
    {change : Order → Order}
    (fails : (manager.changePending orderId change).result = false ∨
      manager.orders[orderId]? = none) :
    (manager.changePending orderId change).manager = manager ∧
      (manager.changePending orderId change).notified = none := by
  unfold changePending at fails ⊢
  cases found : manager.orders[orderId]? with
  | none => exact ⟨rfl, rfl⟩
  | some order =>
      dsimp only
      split
      next pending => simp [found, pending] at fails
      next => exact ⟨rfl, rfl⟩

theorem apply_of_fails {manager : OrderManager} {call : OrderCall}
    (fails : manager.Fails call) :
    (call.apply manager).manager = manager ∧
      (call.apply manager).notified = none := by
  simp only [Fails] at fails
  cases call with
  | placeOrder order =>
      simp [OrderCall.apply, Call.reporting, OrderCall.target?] at fails
  | cancelOrder orderId =>
      simp only [OrderCall.target?, Option.mem_some_iff,
        exists_eq_left'] at fails
      exact changePending_of_fails fails
  | modifyOrder orderId newPrice newQuantity =>
      simp only [OrderCall.target?, Option.mem_some_iff,
        exists_eq_left'] at fails
      exact changePending_of_fails fails
  | simulateOrderExecution orderId executionPrice executedQuantity =>
      have absent : manager.orders[orderId]? = none := by
        simpa [OrderCall.apply, Call.reporting, OrderCall.target?] using fails
      simp [OrderCall.apply, Call.reporting, simulateOrderExecution, absent]

end OrderManager

theorem replay_concat (log : List Order) (order : Order) :
    replay (log ++ [order]) = (replay log).insert order.orderId order := by
  simp [replay]

namespace Observed

theorem after_concat (callbacks : Nat) (events : List OrderEvent)
    (event : OrderEvent) :
    after callbacks (events ++ [event]) =
      (after callbacks events).apply event := by
  simp [after]

/-- The callbacks there from the start have all received one log, and it
describes the orders. -/
structure Faithful (callbacks : Nat) (observed : Observed) (log : List Order) :
    Prop where
  keyed : observed.manager.Keyed
  logs : List.replicate callbacks log <+: observed.logs
  replays : replay log = observed.manager.orders

theorem faithful_init (callbacks : Nat) :
    Faithful callbacks (init callbacks) [] where
  keyed := OrderManager.keyed_init
  logs := List.prefix_refl _
  replays := rfl

theorem Faithful.call {callbacks : Nat} {observed : Observed}
    {log : List Order} (faithful : Faithful callbacks observed log)
    (call : OrderCall) :
    ∃ later, Faithful callbacks (observed.apply (.call call)) later := by
  have keyed := faithful.keyed.apply call
  rcases faithful.keyed.apply_notifies call with ⟨same, silent⟩ |
    ⟨order, notified, orders⟩
  · refine ⟨log, keyed, ?_, ?_⟩
    · simpa [apply, silent] using faithful.logs
    · exact faithful.replays.trans (congrArg OrderManager.orders same).symm
  · refine ⟨log ++ [order], keyed, ?_, ?_⟩
    · have received := faithful.logs.map fun log => log ++ [order]
      rw [List.map_replicate] at received
      simpa [apply, notified, notifyOrderChanged] using received
    · rw [replay_concat, faithful.replays]
      exact orders.symm

theorem exists_faithful (callbacks : Nat) (events : List OrderEvent) :
    ∃ log, Faithful callbacks (after callbacks events) log := by
  induction events using List.reverseRecOn with
  | nil => exact ⟨[], faithful_init callbacks⟩
  | append_singleton rest event induction =>
      obtain ⟨log, faithful⟩ := induction
      rw [after_concat]
      cases event with
      | call call => exact faithful.call call
      | registerOrderCallback =>
          exact ⟨log, faithful.keyed,
            faithful.logs.trans (List.prefix_append _ _), faithful.replays⟩

theorem Faithful.log_of_lt {callbacks : Nat} {observed : Observed}
    {log : List Order} (faithful : Faithful callbacks observed log)
    {index : Nat} (early : index < callbacks) :
    observed.logs[index]? = some log := by
  obtain ⟨others, split⟩ := faithful.logs
  rw [← split, List.getElem?_append_left (by simpa using early),
    List.getElem?_replicate, if_pos early]

/-- After every run, each callback there from the start can replay the order
map from what it received, all of them received the same, and calls notify
exactly when they succeed in changing an order: a placed order as it is
stored. -/
theorem callbacks_replay_orders (callbacks : Nat) (events : List OrderEvent) :
    (∀ index < callbacks,
        ((after callbacks events).logs[index]?).map replay =
          some (after callbacks events).manager.orders) ∧
      (∀ index < callbacks, ∀ other < callbacks,
        (after callbacks events).logs[index]? =
          (after callbacks events).logs[other]?) ∧
      (∀ call,
        ((call.apply (after callbacks events).manager).manager.orders ≠
            (after callbacks events).manager.orders →
          ∃ order, ((after callbacks events).apply (.call call)).logs =
            (after callbacks events).logs.map fun log => log ++ [order]) ∧
        ((after callbacks events).manager.Fails call →
          (after callbacks events).apply (.call call) =
            after callbacks events)) ∧
      ∀ order, ∃ stored,
        ((after callbacks events).apply (.call (.placeOrder order))).logs =
            (after callbacks events).logs.map (fun log => log ++ [stored]) ∧
          ((after callbacks events).apply
            (.call (.placeOrder order))).manager.getOrder
              (after callbacks events).manager.orderIdCounter =
            some stored := by
  obtain ⟨log, faithful⟩ := exists_faithful callbacks events
  refine ⟨fun index early => ?_, fun index early other otherEarly => ?_,
    fun call => ⟨fun changes => ?_, fun fails => ?_⟩, fun order => ?_⟩
  · rw [faithful.log_of_lt early, Option.map_some, faithful.replays]
  · rw [faithful.log_of_lt early, faithful.log_of_lt otherEarly]
  · rcases faithful.keyed.apply_notifies call with ⟨same, _⟩ |
      ⟨order, notified, _⟩
    · exact absurd (congrArg OrderManager.orders same) changes
    · refine ⟨order, ?_⟩
      simp [apply, notified, notifyOrderChanged]
  · obtain ⟨same, silent⟩ := OrderManager.apply_of_fails fails
    simp [apply, same, silent]
  · refine ⟨_, rfl, ?_⟩
    exact Std.ExtTreeMap.getElem?_insert_self

private def loggedOrder : Order where
  orderId := 0
  symbol := "AAPL"
  side := .buy
  orderType := .limit
  price := 100
  quantity := 100
  filledQuantity := 0
  status := .pending
  createdAt := default
  filledAt := default
  commission := 0
  clientOrderId := ""

private def placedAndFilled : List OrderEvent :=
  [.call (.placeOrder loggedOrder), .registerOrderCallback,
    .call (.cancelOrder 7), .call (.simulateOrderExecution 1000 100 100)]

theorem callbacks_replay_orders_placed_and_filled :
    ((after 2 placedAndFilled).logs.map fun log => log.map Order.status) =
        [[.pending, .filled], [.pending, .filled], [.filled]] ∧
      (after 2 placedAndFilled).logs[1]?.map replay =
        some (after 2 placedAndFilled).manager.orders :=
  ⟨by decide +kernel,
    (callbacks_replay_orders 2 placedAndFilled).1 1 (by decide)⟩

end Observed

end TradingBot
