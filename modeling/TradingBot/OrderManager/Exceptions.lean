import TradingBot.OrderManager.Callbacks

namespace TradingBot

namespace OrderManager

/-! What a throwing callback leaves behind. -/

variable {Exception : Type} (manager : OrderManager)

/-- The call throws if it notifies, and all members are as before. -/
structure StrongGuarantee (callbacks : List (OrderCallback Exception))
    (call : OrderCall) : Prop where
  propagates : ∀ order ∈ (call.apply manager).notified,
    ∃ exception, (manager.perform callbacks call).2 = .error exception
  unchanged : (manager.perform callbacks call).1 = manager

/-- The call has nothing to change: its order is absent, no longer pending, or
already as the call would leave it. -/
def HasNothingToChange : OrderCall → Prop
  | .placeOrder _ => False
  | .cancelOrder orderId =>
      ∀ order ∈ manager.orders[orderId]?, order.status ≠ .pending
  | .modifyOrder orderId newPrice newQuantity =>
      ∀ order ∈ manager.orders[orderId]?, order.status = .pending →
        order.price = newPrice ∧ order.quantity = newQuantity
  | .simulateOrderExecution orderId _ executedQuantity =>
      ∀ order ∈ manager.orders[orderId]?,
        order.filledQuantity = executedQuantity ∧
          order.status =
            if executedQuantity = order.quantity then .filled else .partialFill

theorem withOrder_eq_self_iff {orderId : UInt64} {order : Order}
    (found : manager.orders[orderId]? = some order) (changed : Order) :
    { manager with orders := manager.orders.insert orderId changed } = manager ↔
      changed = order := by
  constructor
  · intro same
    have stored := Library.insert_eq_self_iff.mp (congrArg orders same)
    rw [found] at stored
    exact (Option.some.inj stored).symm
  · intro same
    rw [Library.insert_eq_self_iff.mpr (found.trans (congrArg some same.symm))]

theorem changePending_eq_self_iff (orderId : UInt64) (change : Order → Order) :
    (manager.changePending orderId change).manager = manager ↔
      ∀ order ∈ manager.orders[orderId]?, order.status = .pending →
        change order = order := by
  unfold changePending
  cases found : manager.orders[orderId]? with
  | none => simp
  | some order =>
      simp only [Option.mem_def, Option.some.injEq, forall_eq']
      split
      next pending =>
          rw [manager.withOrder_eq_self_iff found]
          simp [pending]
      next settled => simp [settled]

theorem simulateOrderExecution_eq_self_iff (orderId : UInt64)
    (executionPrice : Rat) (executedQuantity : UInt64) :
    (manager.simulateOrderExecution orderId executionPrice
        executedQuantity).manager = manager ↔
      ∀ order ∈ manager.orders[orderId]?,
        executedOrder order executedQuantity = order := by
  unfold simulateOrderExecution
  cases found : manager.orders[orderId]? with
  | none => simp
  | some order =>
      simp only [Option.mem_def, Option.some.injEq, forall_eq']
      exact manager.withOrder_eq_self_iff found _

theorem apply_eq_self_iff (call : OrderCall) :
    (call.apply manager).manager = manager ↔ manager.HasNothingToChange call := by
  cases call with
  | placeOrder order =>
      refine iff_of_false (fun same => ?_) id
      have counted := congrArg orderIdCounter same
      simp [OrderCall.apply, Call.reporting] at counted
  | cancelOrder orderId =>
      rw [OrderCall.apply, cancelOrder, changePending_eq_self_iff]
      refine forall₂_congr fun order _ => imp_congr_right fun pending => ?_
      refine iff_of_false (fun same => ?_) id
      have cancelled : OrderStatus.cancelled = order.status :=
        congrArg Order.status same
      rw [pending] at cancelled
      cases cancelled
  | modifyOrder orderId newPrice newQuantity =>
      rw [OrderCall.apply, modifyOrder, changePending_eq_self_iff]
      refine forall₂_congr fun order _ => imp_congr_right fun _ => ?_
      cases order
      simp [eq_comm]
  | simulateOrderExecution orderId executionPrice executedQuantity =>
      rw [OrderCall.apply, Call.reporting, simulateOrderExecution_eq_self_iff]
      refine forall₂_congr fun order _ => ?_
      cases order
      simp [executedOrder, eq_comm]

theorem perform_manager (callbacks : List (OrderCallback Exception))
    (call : OrderCall) :
    (manager.perform callbacks call).1 = (call.apply manager).manager := by
  unfold perform
  dsimp only
  split <;> rfl

/-- The first exception ends the notification. -/
theorem notifyOrderChanged_throws {callbacks : List (OrderCallback Exception)}
    {order : Order}
    (throws : ∃ callback ∈ callbacks, ∃ exception,
      callback order = .error exception) :
    ∃ exception, notifyOrderChanged callbacks order = .error exception := by
  induction callbacks with
  | nil => simp at throws
  | cons callback rest induction =>
      have first : notifyOrderChanged (callback :: rest) order =
          (callback order).bind fun _ => notifyOrderChanged rest order := rfl
      rw [first]
      cases outcome : callback order with
      | error exception => exact ⟨exception, rfl⟩
      | ok =>
          obtain ⟨thrower, member, exception, thrown⟩ := throws
          rcases List.mem_cons.mp member with rfl | member
          · rw [outcome] at thrown
            cases thrown
          · exact induction ⟨thrower, member, exception, thrown⟩

/-- If a callback throws when notified, the guarantee holds exactly for the
calls that have nothing to change. -/
theorem strongGuarantee_iff {callbacks : List (OrderCallback Exception)}
    {call : OrderCall}
    (throws : ∀ order ∈ (call.apply manager).notified,
      ∃ callback ∈ callbacks, ∃ exception,
        callback order = .error exception) :
    manager.StrongGuarantee callbacks call ↔
      manager.HasNothingToChange call := by
  rw [← apply_eq_self_iff]
  constructor
  · intro guarantee
    rw [← manager.perform_manager callbacks]
    exact guarantee.unchanged
  · intro unchanged
    refine ⟨fun order notified => ?_, ?_⟩
    · obtain ⟨exception, thrown⟩ :=
        notifyOrderChanged_throws (throws order notified)
      refine ⟨exception, ?_⟩
      simp only [perform, Option.mem_def.mp notified, thrown]
      rfl
    · rw [perform_manager]
      exact unchanged

private def anyOrder : Order where
  orderId := 0
  symbol := "AAPL"
  side := .buy
  orderType := .limit
  price := 100
  quantity := 100
  filledQuantity := 0
  status := .pending
  createdAt := default
  filledAt := default
  commission := 0
  clientOrderId := ""

private def throwing : OrderCallback String := fun _ => .error "refused"

theorem strongGuarantee_iff_first_order :
    init.StrongGuarantee [throwing] (.placeOrder anyOrder) ↔
      init.HasNothingToChange (.placeOrder anyOrder) :=
  strongGuarantee_iff init (fun _ _ =>
    ⟨throwing, List.mem_singleton_self _, "refused", rfl⟩)

/-- The caller gets an exception and no id, but the order is in the book. -/
theorem throwing_callback_keeps_order :
    ¬ init.StrongGuarantee [throwing] (.placeOrder anyOrder) := by
  intro guarantee
  have counter := congrArg orderIdCounter guarantee.unchanged
  revert counter
  decide

end OrderManager

end TradingBot
