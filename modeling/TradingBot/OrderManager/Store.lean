import TradingBot.OrderManager.EventLog
import TradingBot.Library.Trace

namespace TradingBot

open Library

/-! The order store under any sequence of calls, and what the listings make of
it. -/

/-- The members of an order that only its placement sets. -/
structure Order.SameTerms (order given : Order) : Prop where
  symbol : order.symbol = given.symbol
  side : order.side = given.side
  orderType : order.orderType = given.orderType
  commission : order.commission = given.commission
  clientOrderId : order.clientOrderId = given.clientOrderId

theorem Order.SameTerms.trans {order earlier given : Order}
    (same : order.SameTerms earlier) (before : earlier.SameTerms given) :
    order.SameTerms given where
  symbol := same.symbol.trans before.symbol
  side := same.side.trans before.side
  orderType := same.orderType.trans before.orderType
  commission := same.commission.trans before.commission
  clientOrderId := same.clientOrderId.trans before.clientOrderId

namespace OrderManager

def after (calls : List OrderCall) : OrderManager :=
  calls.foldl (fun manager call => (call.apply manager).manager) init

theorem after_concat (calls : List OrderCall) (call : OrderCall) :
    after (calls ++ [call]) = (call.apply (after calls)).manager := by
  simp [after]

/-- The id that a `placeOrder` call returns, with the order it was given. -/
def placement (earlier : List OrderCall) : OrderCall → List (UInt64 × Order)
  | .placeOrder order => [(((after earlier).placeOrder order).result, order)]
  | _ => []

def placements (calls : List OrderCall) : List (UInt64 × Order) :=
  eachAfter placement calls

theorem placements_concat (calls : List OrderCall) (call : OrderCall) :
    placements (calls ++ [call]) = placements calls ++ placement calls call :=
  eachAfter_concat placement calls call

/-- The key a call may write to. -/
def writes (manager : OrderManager) (call : OrderCall) : UInt64 :=
  call.target?.getD manager.orderIdCounter

/-- An update of a stored order that leaves what its placement set. -/
structure Updates (manager : OrderManager) (call : OrderCall)
    (next : OrderManager) (found changed : Order) : Prop where
  stored : manager.orders[manager.writes call]? = some found
  identified : changed.orderId = found.orderId
  terms : changed.SameTerms found
  result : next =
    { manager with
      orders := manager.orders.insert (manager.writes call) changed }

theorem changePending_updates (manager : OrderManager) {call : OrderCall}
    {orderId : UInt64} (target : manager.writes call = orderId)
    {change : Order → Order}
    (identified : ∀ order, (change order).orderId = order.orderId)
    (terms : ∀ order, (change order).SameTerms order) :
    (manager.changePending orderId change).manager = manager ∨
      ∃ found changed, manager.Updates call
        (manager.changePending orderId change).manager found changed := by
  subst target
  unfold changePending
  cases stored : manager.orders[manager.writes call]? with
  | none => exact .inl rfl
  | some found =>
      dsimp only
      split
      next =>
          exact .inr ⟨found, change found, stored, identified found,
            terms found, rfl⟩
      next => exact .inl rfl

/-- A call places an order, leaves everything as it is, or updates the order it
finds. -/
theorem apply_cases (manager : OrderManager) (call : OrderCall) :
    (∃ order, call = .placeOrder order) ∨
      (∀ earlier, placement earlier call = []) ∧
        ((call.apply manager).manager = manager ∨
          ∃ found changed, manager.Updates call (call.apply manager).manager
            found changed) := by
  cases call with
  | placeOrder order => exact .inl ⟨order, rfl⟩
  | cancelOrder orderId =>
      refine .inr ⟨fun _ => rfl, ?_⟩
      apply manager.changePending_updates
      · rfl
      · exact fun _ => rfl
      · exact fun _ => ⟨rfl, rfl, rfl, rfl, rfl⟩
  | modifyOrder orderId newPrice newQuantity =>
      refine .inr ⟨fun _ => rfl, ?_⟩
      apply manager.changePending_updates
      · rfl
      · exact fun _ => rfl
      · exact fun _ => ⟨rfl, rfl, rfl, rfl, rfl⟩
  | simulateOrderExecution orderId executionPrice executedQuantity =>
      refine .inr ⟨fun _ => rfl, ?_⟩
      rw [OrderCall.apply, Call.reporting]
      unfold simulateOrderExecution
      cases stored : manager.orders[orderId]? with
      | none => exact .inl rfl
      | some found =>
          exact .inr ⟨found, executedOrder found executedQuantity, stored, rfl,
            ⟨rfl, rfl, rfl, rfl, rfl⟩, rfl⟩

/-- What the placements so far leave in the store. -/
structure Holds (manager : OrderManager) (placed : List (UInt64 × Order)) :
    Prop where
  counter : manager.orderIdCounter.toNat = 1000 + placed.length
  total : manager.totalOrdersPlaced.toNat = placed.length
  size : manager.orders.size = placed.length
  keys : ∀ key : UInt64, key ∈ manager.orders ↔
    1000 ≤ key.toNat ∧ key.toNat < 1000 + placed.length
  orders : ∀ (key : UInt64) (order : Order), manager.orders[key]? = some order →
    order.orderId = key ∧
      ∃ given, (key, given) ∈ placed ∧ order.SameTerms given
  increasing : (placed.map Prod.fst).Pairwise (· < ·)
  issued : ∀ entry ∈ placed, entry.1 < manager.orderIdCounter

theorem holds_init : init.Holds [] where
  counter := rfl
  total := rfl
  size := rfl
  keys := by
    intro key
    simp only [init_orders, Std.ExtTreeMap.not_mem_empty, false_iff]
    simp only [List.length_nil]
    omega
  orders := by
    intro key order found
    simp at found
  increasing := List.Pairwise.nil
  issued := by simp

theorem Holds.update {manager next : OrderManager}
    {placed : List (UInt64 × Order)} (holds : manager.Holds placed)
    {call : OrderCall} {found changed : Order}
    (updates : manager.Updates call next found changed) :
    next.Holds placed := by
  obtain ⟨stored, identified, terms, rfl⟩ := updates
  have present : manager.writes call ∈ manager.orders :=
    Std.ExtTreeMap.mem_iff_isSome_getElem?.mpr (by simp [stored])
  exact
    { counter := holds.counter
      total := holds.total
      size := by
        dsimp only
        rw [Std.ExtTreeMap.size_insert,
          if_pos (Std.ExtTreeMap.mem_iff_contains.mp present)]
        exact holds.size
      keys := by
        intro key
        rw [← holds.keys key, mem_insert_iff, or_iff_right_of_imp]
        rintro rfl
        exact present
      orders := by
        intro key order read
        rw [getElem?_insert_eq_ite] at read
        split at read
        next same =>
            cases read
            obtain ⟨own, given, member, kept⟩ := holds.orders _ found stored
            rw [same]
            exact ⟨identified.trans own, given, member, terms.trans kept⟩
        next => exact holds.orders key order read
      increasing := holds.increasing
      issued := holds.issued }

/-- The next id is the one key that placing an order adds. -/
theorem Holds.keys_place {manager : OrderManager}
    {placed : List (UInt64 × Order)} (holds : manager.Holds placed)
    (order : Order) (key : UInt64) :
    key ∈ (manager.placeOrder order).manager.orders ↔
      1000 ≤ key.toNat ∧ key.toNat < 1000 + (placed.length + 1) := by
  rw [placeOrder]
  dsimp only
  rw [mem_insert_iff, holds.keys, ← UInt64.toNat_inj, holds.counter]
  omega

theorem Holds.increasing_place {manager : OrderManager}
    {placed : List (UInt64 × Order)} (holds : manager.Holds placed)
    (order : Order) :
    ((placed ++ [(manager.orderIdCounter, order)]).map Prod.fst).Pairwise
      (· < ·) := by
  rw [List.map_append, List.map_singleton, List.pairwise_append]
  refine ⟨holds.increasing, List.pairwise_singleton _ _, ?_⟩
  intro earlier member last final
  obtain ⟨entry, listed, rfl⟩ := List.mem_map.mp member
  rw [List.mem_singleton.mp final]
  exact holds.issued entry listed

theorem Holds.place {manager : OrderManager} {placed : List (UInt64 × Order)}
    (holds : manager.Holds placed) (room : placed.length + 1 < 2 ^ 64 - 1000)
    (order : Order) :
    (manager.placeOrder order).manager.Holds
      (placed ++ [((manager.placeOrder order).result, order)]) := by
  have counted := holds.counter
  have next : (manager.orderIdCounter + 1).toNat = 1000 + (placed.length + 1) := by
    rw [UInt64.toNat_add, counted]
    simp
    omega
  have fresh : manager.orderIdCounter ∉ manager.orders := by
    rw [holds.keys, counted]
    omega
  have longer : (placed ++ [((manager.placeOrder order).result, order)]).length =
      placed.length + 1 := List.length_append
  exact
    { counter := by rw [placeOrder_counter, next, longer]
      total := by
        rw [placeOrder, UInt64.toNat_add, holds.total, List.length_append,
          List.length_singleton]
        simp
        omega
      size := by
        rw [longer, placeOrder, ← holds.size]
        dsimp only
        rw [Std.ExtTreeMap.size_insert,
          if_neg (mt Std.ExtTreeMap.mem_iff_contains.mpr fresh)]
      keys := by
        intro key
        rw [longer]
        exact holds.keys_place order key
      orders := by
        intro key stored read
        rw [placeOrder_orders] at read
        split at read
        next same =>
            cases read
            refine ⟨same.symm, order, ?_, rfl, rfl, rfl, rfl, rfl⟩
            rw [same]
            exact List.mem_append_right _ (List.mem_singleton_self _)
        next =>
            obtain ⟨own, given, member, kept⟩ := holds.orders key stored read
            exact ⟨own, given, List.mem_append_left _ member, kept⟩
      increasing := holds.increasing_place order
      issued := by
        intro entry member
        have rises : manager.orderIdCounter < manager.orderIdCounter + 1 := by
          rw [UInt64.lt_iff_toNat_lt, next, counted]
          omega
        rw [placeOrder_counter]
        rcases List.mem_append.mp member with earlier | last
        · exact UInt64.lt_trans (holds.issued entry earlier) rises
        · rw [List.mem_singleton.mp last]
          exact rises }

theorem holds_after {calls : List OrderCall}
    (few : (placements calls).length < 2 ^ 64 - 1000) :
    (after calls).Holds (placements calls) := by
  induction calls using List.reverseRecOn with
  | nil => exact holds_init
  | append_singleton calls call induction =>
      rw [placements_concat, List.length_append] at few
      have holds := induction (by omega)
      rw [after_concat, placements_concat]
      obtain ⟨order, rfl⟩ | ⟨silent, same | ⟨found, changed, updates⟩⟩ :=
        (after calls).apply_cases call
      · exact holds.place few order
      · rw [silent, List.append_nil, same]
        exact holds
      · rw [silent, List.append_nil]
        exact holds.update updates

theorem apply_frame (manager : OrderManager) {call : OrderCall} {key : UInt64}
    (other : key ≠ manager.writes call) :
    (call.apply manager).manager.orders[key]? = manager.orders[key]? := by
  obtain ⟨order, rfl⟩ | ⟨_, same | ⟨found, changed, updates⟩⟩ :=
    manager.apply_cases call
  · exact (manager.placeOrder_orders order key).trans (if_neg other)
  · rw [same]
  · rw [updates.result, getElem?_insert_eq_ite, if_neg other]

theorem mem_getOrderHistory {manager : OrderManager} {order : Order} :
    order ∈ manager.getOrderHistory ↔
      ∃ key : UInt64, manager.orders[key]? = some order := by
  simp only [getOrderHistory, ordersWhere, List.filter_true, List.mem_map,
    Prod.exists, exists_eq_right, Std.ExtTreeMap.mem_toList_iff_getElem?_eq_some]

theorem ordersWhere_eq_filter (manager : OrderManager) (wanted : Order → Bool) :
    manager.ordersWhere wanted = manager.getOrderHistory.filter wanted := by
  rw [getOrderHistory, ordersWhere, ordersWhere, List.filter_true,
    List.filter_map]
  rfl

/-- The history lists the orders by rising id. -/
theorem Keyed.history_increasing {manager : OrderManager}
    (keyed : manager.Keyed) :
    (manager.getOrderHistory.map Order.orderId).Pairwise (· < ·) := by
  have ordered : (manager.orders.toList.map Prod.fst).Pairwise (· < ·) := by
    rw [List.pairwise_map]
    exact Std.ExtTreeMap.ordered_keys_toList.imp fun less =>
      Std.compare_eq_lt.mp less
  have ids : manager.getOrderHistory.map Order.orderId =
      manager.orders.toList.map Prod.fst := by
    rw [getOrderHistory, ordersWhere, List.filter_true, List.map_map]
    apply List.map_congr_left
    intro pair member
    exact keyed pair.1 pair.2
      (Std.ExtTreeMap.mem_toList_iff_getElem?_eq_some.mp member)
  rw [ids]
  exact ordered

/-- The order store after any calls, of which fewer than 2^64 - 1000 place an
order: its keys, its counters, the ids handed out, what an order keeps from its
placement, what a call may touch, and the listings. -/
theorem store_invariant {calls : List OrderCall}
    (few : (placements calls).length < 2 ^ 64 - 1000) :
    (∀ key : UInt64, key ∈ (after calls).orders ↔
        1000 ≤ key ∧ key < (after calls).orderIdCounter) ∧
      (∀ (key : UInt64) (order : Order),
        (after calls).orders[key]? = some order →
          order.orderId = key ∧
            ∃ given, (key, given) ∈ placements calls ∧
              order.SameTerms given) ∧
      (after calls).totalOrdersPlaced.toNat = (after calls).orders.size ∧
      (after calls).orders.size = (after calls).orderIdCounter.toNat - 1000 ∧
      ((placements calls).map Prod.fst).Pairwise (· < ·) ∧
      (∀ call key, key ≠ (after calls).writes call →
        (call.apply (after calls)).manager.orders[key]? =
          (after calls).orders[key]?) ∧
      ((after calls).getOrderHistory.map Order.orderId).Pairwise (· < ·) ∧
      (∀ order, order ∈ (after calls).getOrderHistory ↔
        ∃ key : UInt64, (after calls).orders[key]? = some order) ∧
      (after calls).getActiveOrders =
        (after calls).getOrderHistory.filter (fun order =>
          decide (order.status = .pending ∨ order.status = .partialFill)) ∧
      ∀ symbol,
        (after calls).getOrdersBySymbol symbol =
          (after calls).getOrderHistory.filter fun order =>
            decide (order.symbol = symbol) := by
  have holds := holds_after few
  have keyed : (after calls).Keyed := fun key order found =>
    (holds.orders key order found).1
  refine ⟨fun key => ?_, holds.orders, holds.total.trans holds.size.symm, ?_,
    holds.increasing, fun call key other => apply_frame _ other,
    keyed.history_increasing, fun order => mem_getOrderHistory,
    ordersWhere_eq_filter _ _, fun symbol => ordersWhere_eq_filter _ _⟩
  · rw [holds.keys, UInt64.le_iff_toNat_le, UInt64.lt_iff_toNat_lt,
      holds.counter]
    rfl
  · rw [holds.size, holds.counter]
    omega

def limitBuy (symbol : String) : Order where
  orderId := 0
  symbol := symbol
  side := .buy
  orderType := .limit
  price := 100
  quantity := 100
  filledQuantity := 0
  status := .filled
  createdAt := default
  filledAt := default
  commission := 0
  clientOrderId := ""

private def placedAndFilled : List OrderCall :=
  [.placeOrder (limitBuy "AAPL"), .placeOrder (limitBuy "MSFT"),
    .simulateOrderExecution 1000 100 50, .cancelOrder 1001]

theorem store_invariant_placedAndFilled :
    ((after placedAndFilled).getOrderHistory.map Order.orderId).Pairwise
      (· < ·) :=
  (store_invariant (by decide)).2.2.2.2.2.2.1

end OrderManager

end TradingBot
