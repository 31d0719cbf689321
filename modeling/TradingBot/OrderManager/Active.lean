import TradingBot.OrderManager.Store

namespace TradingBot

open Library

/-! The orders listed as active against those that can be cancelled. -/

namespace OrderManager

/-- An id can be cancelled exactly if it is listed as active, and then leaves
the list. -/
structure CancelsActive (manager : OrderManager) (orderId : UInt64) : Prop where
  cancellable : (manager.cancelOrder orderId).result = true ↔
    ∃ order ∈ manager.getActiveOrders, order.orderId = orderId
  removed : (manager.cancelOrder orderId).result = true →
    (manager.cancelOrder orderId).manager.getActiveOrders =
      manager.getActiveOrders.eraseP fun order =>
        decide (order.orderId = orderId)

theorem keyed_after (calls : List OrderCall) : (after calls).Keyed := by
  induction calls using List.reverseRecOn with
  | nil => exact keyed_init
  | append_singleton calls call induction =>
      rw [after_concat]
      exact induction.apply call

theorem cancelOrder_result (manager : OrderManager) (orderId : UInt64) :
    (manager.cancelOrder orderId).result = true ↔
      ∃ order, manager.orders[orderId]? = some order ∧
        order.status = .pending := by
  rw [cancelOrder, changePending]
  cases manager.orders[orderId]? with
  | none => simp
  | some order =>
      by_cases pending : order.status = .pending
      · simp [pending]
      · simp [pending]

theorem Keyed.mem_getActiveOrders {manager : OrderManager}
    (keyed : manager.Keyed) (orderId : UInt64) :
    (∃ order ∈ manager.getActiveOrders, order.orderId = orderId) ↔
      ∃ order, manager.orders[orderId]? = some order ∧
        isActive order = true := by
  simp only [getActiveOrders, ordersWhere_eq_filter, List.mem_filter,
    mem_getOrderHistory]
  constructor
  · intro listed
    obtain ⟨order, ⟨⟨key, found⟩, active⟩, own⟩ := listed
    rw [keyed key order found] at own
    rw [own] at found
    exact ⟨order, found, active⟩
  · intro stored
    obtain ⟨order, found, active⟩ := stored
    exact ⟨order, ⟨⟨orderId, found⟩, active⟩, keyed orderId order found⟩

/-- An entry changed to one that is not wanted goes missing from what is. -/
private theorem wanted_without {wanted : Order → Bool} {changed : Order}
    (unwanted : wanted changed = false) {orderId : UInt64}
    {pairs : List (UInt64 × Order)}
    (keyed : ∀ pair ∈ pairs, pair.2.orderId = pair.1) :
    ((pairs.map fun entry =>
        (entry.1, if entry.1 = orderId then changed else entry.2)).filter
          fun pair => wanted pair.2).map Prod.snd =
      ((pairs.filter fun pair => wanted pair.2).map Prod.snd).filter
        fun order => !decide (order.orderId = orderId) := by
  induction pairs with
  | nil => rfl
  | cons pair rest induction =>
      have own := keyed pair List.mem_cons_self
      have tail := induction fun other member =>
        keyed other (List.mem_cons_of_mem _ member)
      rcases eq_or_ne pair.1 orderId with rfl | differ
      · by_cases listed : wanted pair.2 = true
        · simpa [unwanted, listed, own] using tail
        · simpa [unwanted, listed, own] using tail
      · by_cases listed : wanted pair.2 = true
        · simpa [differ, listed, own] using tail
        · simpa [differ, listed, own] using tail

/-- Cancelling a pending order takes it out of what is listed. -/
theorem Keyed.getActiveOrders_cancelOrder {manager : OrderManager}
    (keyed : manager.Keyed) {orderId : UInt64}
    (cancelled : (manager.cancelOrder orderId).result = true) :
    (manager.cancelOrder orderId).manager.getActiveOrders =
      manager.getActiveOrders.filter fun order =>
        !decide (order.orderId = orderId) := by
  obtain ⟨order, found, pending⟩ :=
    (manager.cancelOrder_result orderId).mp cancelled
  have orders : (manager.cancelOrder orderId).manager.orders =
      manager.orders.insert orderId { order with status := .cancelled } := by
    simp [cancelOrder, changePending, found, pending]
  rw [getActiveOrders, ordersWhere, orders, toList_insert_of_mem found]
  apply wanted_without
  · rfl
  · intro pair member
    exact keyed pair.1 pair.2
      (Std.ExtTreeMap.mem_toList_iff_getElem?_eq_some.mp member)

/-- Among distinct ids, only one order has a given id. -/
theorem filter_eq_eraseP {orders : List Order}
    (increasing : (orders.map Order.orderId).Pairwise (· < ·))
    (orderId : UInt64) :
    (orders.filter fun order => !decide (order.orderId = orderId)) =
      orders.eraseP fun order => decide (order.orderId = orderId) := by
  induction orders with
  | nil => rfl
  | cons order rest induction =>
      rw [List.map_cons, List.pairwise_cons] at increasing
      rcases eq_or_ne order.orderId orderId with rfl | differ
      · have others : ∀ other ∈ rest, other.orderId ≠ order.orderId := by
          intro other member same
          have below := increasing.1 other.orderId
            (List.mem_map.mpr ⟨other, member, rfl⟩)
          rw [same] at below
          exact UInt64.lt_irrefl _ below
        simpa using others
      · simpa [differ] using induction increasing.2

/-- After any calls, an id is cancellable exactly if it is listed as active,
unless its order is partially filled. -/
theorem cancelsActive_iff (calls : List OrderCall) (orderId : UInt64) :
    (after calls).CancelsActive orderId ↔
      ∀ order ∈ (after calls).getOrder orderId,
        order.status ≠ .partialFill := by
  have keyed := keyed_after calls
  have active := keyed.mem_getActiveOrders orderId
  constructor
  · intro cancels order found partially
    have listed := active.mpr ⟨order, found, by simp [isActive, partially]⟩
    obtain ⟨pending, stored, status⟩ :=
      (cancelOrder_result _ orderId).mp (cancels.cancellable.mpr listed)
    have same : (after calls).getOrder orderId = some pending := stored
    rw [Option.mem_def.mp found] at same
    cases same
    rw [partially] at status
    cases status
  · intro whole
    refine ⟨?_, fun cancelled => ?_⟩
    · rw [cancelOrder_result, active]
      refine exists_congr fun order => and_congr_right fun found => ?_
      simp [isActive, whole order found]
    · rw [keyed.getActiveOrders_cancelOrder cancelled, filter_eq_eraseP]
      rw [getActiveOrders, ordersWhere_eq_filter]
      exact keyed.history_increasing.sublist (List.filter_sublist.map _)

/-- Half of the order is filled; the rest is listed and cannot be cancelled. -/
theorem partial_order_cannot_be_cancelled :
    ¬ (after
        [.placeOrder (limitBuy "AAPL"),
          .simulateOrderExecution 1000 100 50]).CancelsActive 1000 := by
  intro cancels
  have cancellable := cancels.cancellable
  revert cancellable
  decide +kernel

end OrderManager

end TradingBot
