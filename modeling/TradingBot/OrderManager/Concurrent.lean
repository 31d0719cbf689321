import TradingBot.OrderManager.Sections

namespace TradingBot

open Library

/-! Calls of one `OrderManager` from any number of threads at once. -/

namespace OrderManager

theorem changePending_settled (manager : OrderManager) {orderId : UInt64}
    (settled : ∀ order, manager.orders[orderId]? = some order →
      order.status ≠ .pending) (change : Order → Order) :
    manager.changePending orderId change =
      { manager, notified := none, result := false } := by
  unfold changePending
  split
  next => rfl
  next order found => rw [if_neg (settled order found)]

end OrderManager

namespace OrderMembers

variable {members : OrderMembers} {orderId : UInt64} {order : Order}

theorem perform_pending (found : members.orders[orderId]? = some order)
    (pending : order.status = .pending) (change : PendingChange) :
    members.perform (.changePending orderId change) =
      ({ members with
          orders := members.orders.insert orderId (change.apply order) },
        .changed (some (change.apply order)) true) := by
  cases change with
  | cancel =>
      simp [perform, OrderManager.performOrder, OrderManager.performChange,
        OrderManager.cancelOrder, OrderManager.changePending,
        OrderManager.assemble, OrderManager.orderMembers, found, pending,
        PendingChange.apply]
  | modify newPrice newQuantity =>
      simp [perform, OrderManager.performOrder, OrderManager.performChange,
        OrderManager.modifyOrder, OrderManager.changePending,
        OrderManager.assemble, OrderManager.orderMembers, found, pending,
        PendingChange.apply]

theorem perform_settled
    (settled : ∀ order, members.orders[orderId]? = some order →
      order.status ≠ .pending) (change : PendingChange) :
    members.perform (.changePending orderId change) =
      (members, .changed none false) := by
  have unchanged :=
    (OrderManager.assemble members ⟨[], 0⟩).changePending_settled settled
  cases change with
  | cancel =>
      rw [perform, OrderManager.performOrder, OrderManager.performChange,
        OrderManager.cancelOrder, unchanged]
      rfl
  | modify newPrice newQuantity =>
      rw [perform, OrderManager.performOrder, OrderManager.performChange,
        OrderManager.modifyOrder, unchanged]
      rfl

theorem perform_executed (found : members.orders[orderId]? = some order)
    (executionPrice : Rat) (executedQuantity : UInt64) :
    members.perform
        (.simulateOrderExecution orderId executionPrice executedQuantity) =
      ({ members with
          orders := members.orders.insert orderId
            (OrderManager.executedOrder order executedQuantity) },
        .executed (some (OrderManager.executedOrder order executedQuantity))) := by
  simp [perform, OrderManager.performOrder, OrderManager.simulateOrderExecution,
    OrderManager.assemble, OrderManager.orderMembers, found]

theorem perform_unexecuted (absent : members.orders[orderId]? = none)
    (executionPrice : Rat) (executedQuantity : UInt64) :
    members.perform
        (.simulateOrderExecution orderId executionPrice executedQuantity) =
      (members, .executed none) := by
  simp [perform, OrderManager.performOrder, OrderManager.simulateOrderExecution,
    OrderManager.assemble, OrderManager.orderMembers, absent]

end OrderMembers

namespace OrderPoint

def placedOrder (before : OrderMembers) (order : Order) : Order :=
  { order with orderId := before.orderIdCounter, status := .pending }

/-- What is known at a point of a section that found the members as they were
before. -/
def Holds (performed : OrderSection) (before members : OrderMembers) :
    OrderPoint → Prop
  | .takeId order => performed = .placeOrder order ∧ members = before
  | .advanceCounter newOrder =>
      ∃ order, performed = .placeOrder order ∧
        newOrder = placedOrder before order ∧ members = before
  | .storeOrder newOrder =>
      ∃ order, performed = .placeOrder order ∧
        newOrder = placedOrder before order ∧
        members = { before with orderIdCounter := before.orderIdCounter + 1 }
  | .countOrder newOrder =>
      ∃ order, performed = .placeOrder order ∧
        newOrder = placedOrder before order ∧
        members = { before with
          orderIdCounter := before.orderIdCounter + 1
          orders := before.orders.insert newOrder.orderId newOrder }
  | .notifyPlaced newOrder =>
      ∃ order, performed = .placeOrder order ∧
        newOrder = placedOrder before order ∧
        members = (before.perform performed).1
  | .findPending orderId change | .testStatus orderId change =>
      performed = .changePending orderId change ∧ members = before
  | .writeStatus orderId =>
      performed = .changePending orderId .cancel ∧ members = before ∧
        pendingAt before orderId = true
  | .writePrice orderId newPrice newQuantity =>
      performed = .changePending orderId (.modify newPrice newQuantity) ∧
        members = before ∧ pendingAt before orderId = true
  | .writeQuantity orderId newQuantity =>
      ∃ newPrice order,
        performed = .changePending orderId (.modify newPrice newQuantity) ∧
        before.orders[orderId]? = some order ∧ order.status = .pending ∧
        members = { before with
          orders := before.orders.insert orderId
            { order with price := newPrice } }
  | .notifyChanged orderId =>
      ∃ change order, performed = .changePending orderId change ∧
        before.orders[orderId]? = some order ∧ order.status = .pending ∧
        members = { before with
          orders := before.orders.insert orderId (change.apply order) }
  | .findExecuted orderId executedQuantity =>
      ∃ executionPrice,
        performed =
          .simulateOrderExecution orderId executionPrice executedQuantity ∧
        members = before
  | .writeFilledQuantity orderId executedQuantity =>
      ∃ executionPrice order,
        performed =
          .simulateOrderExecution orderId executionPrice executedQuantity ∧
        before.orders[orderId]? = some order ∧ members = before
  | .writeFilledStatus orderId executedQuantity =>
      ∃ executionPrice order,
        performed =
          .simulateOrderExecution orderId executionPrice executedQuantity ∧
        before.orders[orderId]? = some order ∧
        members = { before with
          orders := before.orders.insert orderId
            { order with filledQuantity := executedQuantity } }
  | .notifyExecuted orderId =>
      ∃ executionPrice executedQuantity order,
        performed =
          .simulateOrderExecution orderId executionPrice executedQuantity ∧
        before.orders[orderId]? = some order ∧
        members = { before with
          orders := before.orders.insert orderId
            (OrderManager.executedOrder order executedQuantity) }
  | .findOrder orderId => performed = .getOrder orderId ∧ members = before
  | .nextOrder listing visited result =>
      performed = .list listing ∧ members = before ∧
        ∃ passed rest, before.orders.toList = passed ++ rest ∧
          visited = passed.getLast?.map Prod.fst ∧
          result =
            (passed.filter fun pair => listing.wanted pair.2).map Prod.snd
  | .finished answer => (members, answer) = before.perform performed

variable {performed : OrderSection} {before members : OrderMembers}

theorem holds_enter (performed : OrderSection) (before : OrderMembers) :
    Holds performed before before (enter performed) := by
  cases performed with
  | simulateOrderExecution orderId executionPrice executedQuantity =>
      exact ⟨executionPrice, rfl, rfl⟩
  | list listing => exact ⟨rfl, rfl, [], _, rfl, rfl, rfl⟩
  | _ => exact ⟨rfl, rfl⟩

theorem pendingAt_eq_true {orderId : UInt64} :
    pendingAt members orderId = true ↔
      ∃ order, members.orders[orderId]? = some order ∧
        order.status = .pending := by
  simp [pendingAt, Option.any_eq_true]

theorem write_of_found {orderId : UInt64} {order : Order}
    (found : members.orders[orderId]? = some order) (change : Order → Order) :
    write members orderId change =
      { members with orders := members.orders.insert orderId (change order) } := by
  rw [write, modify_eq_insert found]

theorem write_of_written {orderId : UInt64} (written : Order)
    (change : Order → Order) :
    write
        { before with orders := before.orders.insert orderId written } orderId
        change =
      { before with orders := before.orders.insert orderId (change written) } := by
  have found : (before.orders.insert orderId written)[orderId]? = some written :=
    Std.ExtTreeMap.getElem?_insert_self
  rw [write_of_found found, insert_insert]

theorem holds_step {point : OrderPoint}
    (holds : Holds performed before members point)
    (inside : point.exit = none) :
    Holds performed before (point.step members).1 (point.step members).2 := by
  cases point with
  | takeId order =>
      obtain ⟨rfl, rfl⟩ := holds
      exact ⟨order, rfl, rfl, rfl⟩
  | advanceCounter newOrder =>
      obtain ⟨order, rfl, rfl, rfl⟩ := holds
      exact ⟨order, rfl, rfl, rfl⟩
  | storeOrder newOrder =>
      obtain ⟨order, rfl, rfl, rfl⟩ := holds
      exact ⟨order, rfl, rfl, rfl⟩
  | countOrder newOrder =>
      obtain ⟨order, rfl, rfl, rfl⟩ := holds
      exact ⟨order, rfl, rfl, rfl⟩
  | notifyPlaced newOrder =>
      obtain ⟨order, rfl, rfl, rfl⟩ := holds
      rfl
  | findPending orderId change =>
      obtain ⟨rfl, rfl⟩ := holds
      dsimp only [step]
      split
      next => exact ⟨rfl, rfl⟩
      next absent =>
          refine (OrderMembers.perform_settled (fun order found => ?_) change).symm
          simp [found] at absent
  | testStatus orderId change =>
      obtain ⟨rfl, rfl⟩ := holds
      dsimp only [step]
      split
      next pending =>
          cases change with
          | cancel => exact ⟨rfl, rfl, pending⟩
          | modify newPrice newQuantity => exact ⟨rfl, rfl, pending⟩
      next settled =>
          refine (OrderMembers.perform_settled (fun order found status => ?_)
            change).symm
          exact settled (pendingAt_eq_true.mpr ⟨order, found, status⟩)
  | writeStatus orderId =>
      obtain ⟨rfl, rfl, pending⟩ := holds
      obtain ⟨order, found, status⟩ := pendingAt_eq_true.mp pending
      exact ⟨.cancel, order, rfl, found, status, write_of_found found _⟩
  | writePrice orderId newPrice newQuantity =>
      obtain ⟨rfl, rfl, pending⟩ := holds
      obtain ⟨order, found, status⟩ := pendingAt_eq_true.mp pending
      exact ⟨newPrice, order, rfl, found, status, write_of_found found _⟩
  | writeQuantity orderId newQuantity =>
      obtain ⟨newPrice, order, rfl, found, status, rfl⟩ := holds
      exact ⟨.modify newPrice newQuantity, order, rfl, found, status,
        write_of_written _ _⟩
  | notifyChanged orderId =>
      obtain ⟨change, order, rfl, found, status, rfl⟩ := holds
      show (_, _) = _
      rw [OrderMembers.perform_pending found status]
      simp [step]
  | findExecuted orderId executedQuantity =>
      obtain ⟨executionPrice, rfl, rfl⟩ := holds
      dsimp only [step]
      cases found : members.orders[orderId]? with
      | none =>
          exact (OrderMembers.perform_unexecuted found executionPrice
            executedQuantity).symm
      | some order => exact ⟨executionPrice, order, rfl, found, rfl⟩
  | writeFilledQuantity orderId executedQuantity =>
      obtain ⟨executionPrice, order, rfl, found, rfl⟩ := holds
      exact ⟨executionPrice, order, rfl, found, write_of_found found _⟩
  | writeFilledStatus orderId executedQuantity =>
      obtain ⟨executionPrice, order, rfl, found, rfl⟩ := holds
      exact ⟨executionPrice, executedQuantity, order, rfl, found,
        write_of_written _ _⟩
  | notifyExecuted orderId =>
      obtain ⟨executionPrice, executedQuantity, order, rfl, found, rfl⟩ := holds
      show (_, _) = _
      rw [OrderMembers.perform_executed found]
      simp [step]
  | findOrder orderId =>
      obtain ⟨rfl, rfl⟩ := holds
      rfl
  | nextOrder listing visited result =>
      obtain ⟨rfl, rfl, passed, rest, split, rfl, rfl⟩ := holds
      have reached := nextEntry_eq_head? split
      dsimp only [step]
      rw [reached]
      cases rest with
      | nil =>
          rw [List.append_nil] at split
          show (_, _) = _
          rw [← split]
          rfl
      | cons pair rest =>
          refine ⟨rfl, rfl, passed ++ [pair], rest, by simp [split],
            by simp, ?_⟩
          by_cases wanted : listing.wanted pair.2 = true
          · simp [wanted]
          · simp [wanted]
  | finished answer => simp [exit] at inside

def code : SectionCode OrderMembers OrderPoint OrderSection Answer where
  enter := enter
  step := step
  exit := exit

theorem holds_of_within {point : OrderPoint}
    (within : code.Within performed before members point) :
    Holds performed before members point := by
  induction within with
  | enter => exact holds_enter performed before
  | step _ inside induction => exact holds_step induction inside

/-- Once it has taken effect, a section leaves the members alone. -/
theorem members_of_committed {point : OrderPoint}
    (holds : Holds performed before members point)
    (done : point.committed = true) :
    members = (before.perform performed).1 := by
  cases point with
  | notifyPlaced newOrder =>
      obtain ⟨order, rfl, rfl, rfl⟩ := holds
      rfl
  | notifyChanged orderId =>
      obtain ⟨change, order, rfl, found, status, rfl⟩ := holds
      rw [OrderMembers.perform_pending found status]
  | notifyExecuted orderId =>
      obtain ⟨executionPrice, executedQuantity, order, rfl, found, rfl⟩ := holds
      rw [OrderMembers.perform_executed found]
  | finished answer => exact (Prod.ext_iff.mp holds).1
  | _ => simp [committed] at done

theorem total_of_uncommitted {point : OrderPoint}
    (holds : Holds performed before members point)
    (undone : point.committed = false) :
    members.totalOrdersPlaced = before.totalOrdersPlaced := by
  cases point with
  | notifyPlaced _ | notifyChanged _ | notifyExecuted _ | finished _ =>
      simp [committed] at undone
  | takeId _ | findPending _ _ | testStatus _ _ | findOrder _ =>
      exact congrArg OrderMembers.totalOrdersPlaced holds.2
  | writeStatus _ | writePrice _ _ _ | nextOrder _ _ _ =>
      exact congrArg OrderMembers.totalOrdersPlaced holds.2.1
  | advanceCounter _ | storeOrder _ | countOrder _ =>
      obtain ⟨_, _, _, rfl⟩ := holds
      rfl
  | writeQuantity _ _ =>
      obtain ⟨_, _, _, _, _, rfl⟩ := holds
      rfl
  | findExecuted _ _ =>
      obtain ⟨_, _, rfl⟩ := holds
      rfl
  | writeFilledQuantity _ _ | writeFilledStatus _ _ =>
      obtain ⟨_, _, _, _, rfl⟩ := holds
      rfl

theorem committed_step {point : OrderPoint} (inside : point.exit = none)
    (done : point.committed = true) (members : OrderMembers) :
    (point.step members).2.committed = true := by
  cases point with
  | notifyPlaced _ | notifyChanged _ | notifyExecuted _ => rfl
  | finished answer => simp [exit] at inside
  | _ => simp [committed] at done

theorem committed_of_exit {point : OrderPoint} {answer : Answer}
    (exits : point.exit = some answer) : point.committed = true := by
  cases point with
  | finished answer => rfl
  | _ => simp [exit] at exits

theorem returns {point : OrderPoint} {answer : Answer}
    (within : code.Within performed before members point)
    (exits : point.exit = some answer) :
    (members, answer) = before.perform performed := by
  have holds := holds_of_within within
  cases point with
  | finished answer =>
      cases exits
      exact holds
  | _ => simp [exit] at exits

theorem implements :
    code.Implements OrderMembers.perform OrderMembers.totalOrdersPlaced
      committed where
  enters := fun performed => by cases performed <;> rfl
  stays := fun _ members inside done => committed_step inside done members
  exits := fun _ _ exits => committed_of_exit exits
  returns := fun _ _ _ _ _ within exits => returns within exits
  hidden := fun _ _ _ _ within undone =>
    total_of_uncommitted (holds_of_within within) undone
  shown := fun _ _ _ _ within done =>
    congrArg OrderMembers.totalOrdersPlaced
      (members_of_committed (holds_of_within within) done)

end OrderPoint

namespace TradePoint

/-- What is known at a point of a section that found the members as they were
before. -/
def Holds (performed : TradeSection) (before members : TradeMembers) :
    TradePoint → Prop
  | .pushTrade trade => performed = .simulateTrade trade ∧ members = before
  | .countTrade =>
      ∃ trade, performed = .simulateTrade trade ∧
        members = { before with trades := before.trades ++ [trade] }
  | .counted =>
      ∃ trade, performed = .simulateTrade trade ∧
        members = (before.perform performed).1
  | .copyTrade result =>
      performed = .getTradeHistory ∧ members = before ∧
        ∃ rest, before.trades = result ++ rest
  | .testTrade tradeId index =>
      performed = .getTrade tradeId ∧ members = before ∧
        ∃ passed rest, before.trades = passed ++ rest ∧
          passed.length = index ∧ ∀ trade ∈ passed, trade.tradeId ≠ tradeId
  | .finished answer => (members, answer) = before.perform performed

variable {performed : TradeSection} {before members : TradeMembers}

theorem holds_enter (performed : TradeSection) (before : TradeMembers) :
    Holds performed before before (enter performed) := by
  cases performed with
  | simulateTrade trade => exact ⟨rfl, rfl⟩
  | getTradeHistory => exact ⟨rfl, rfl, _, rfl⟩
  | getTrade tradeId => exact ⟨rfl, rfl, [], _, rfl, rfl, by simp⟩

theorem holds_step {point : TradePoint}
    (holds : Holds performed before members point)
    (inside : point.exit = none) :
    Holds performed before (point.step members).1 (point.step members).2 := by
  cases point with
  | pushTrade trade =>
      obtain ⟨rfl, rfl⟩ := holds
      exact ⟨trade, rfl, rfl⟩
  | countTrade =>
      obtain ⟨trade, rfl, rfl⟩ := holds
      exact ⟨trade, rfl, rfl⟩
  | counted =>
      obtain ⟨trade, rfl, rfl⟩ := holds
      rfl
  | copyTrade result =>
      obtain ⟨rfl, rfl, rest, split⟩ := holds
      have reached : members.trades[result.length]? = rest.head? := by
        rw [split]
        cases rest <;> simp
      dsimp only [step]
      rw [reached]
      cases rest with
      | nil =>
          rw [List.append_nil] at split
          rw [← split]
          rfl
      | cons trade rest => exact ⟨rfl, rfl, rest, by simp [split]⟩
  | testTrade tradeId index =>
      obtain ⟨rfl, rfl, passed, rest, split, rfl, others⟩ := holds
      have skipped : ∀ trade ∈ passed, ¬ decide (trade.tradeId = tradeId) = true := by
        simpa using others
      have searched : members.trades.find? (fun trade =>
          decide (trade.tradeId = tradeId)) =
            rest.find? fun trade => decide (trade.tradeId = tradeId) := by
        rw [split, List.find?_append, List.find?_eq_none.mpr skipped,
          Option.none_or]
      have reached : members.trades[passed.length]? = rest.head? := by
        rw [split]
        cases rest <;> simp
      have answer : members.perform (.getTrade tradeId) =
          (members, .trade (rest.find? fun trade =>
            decide (trade.tradeId = tradeId))) := by
        rw [← searched]
        rfl
      dsimp only [step]
      rw [reached]
      cases rest with
      | nil => exact answer.symm
      | cons trade rest =>
          by_cases same : trade.tradeId = tradeId
          · rw [List.find?_cons_of_pos (by simpa using same)] at answer
            simp only [List.head?_cons, same, if_true]
            exact answer.symm
          · simp only [List.head?_cons, same, if_false]
            refine ⟨rfl, rfl, passed ++ [trade], rest, by simp [split], by simp,
              ?_⟩
            intro other member
            rcases List.mem_append.mp member with earlier | last
            · exact others other earlier
            · rwa [List.mem_singleton.mp last]
  | finished answer => simp [exit] at inside

def code : SectionCode TradeMembers TradePoint TradeSection Answer where
  enter := enter
  step := step
  exit := exit

theorem holds_of_within {point : TradePoint}
    (within : code.Within performed before members point) :
    Holds performed before members point := by
  induction within with
  | enter => exact holds_enter performed before
  | step _ inside induction => exact holds_step induction inside

theorem members_of_committed {point : TradePoint}
    (holds : Holds performed before members point)
    (done : point.committed = true) :
    members = (before.perform performed).1 := by
  cases point with
  | counted =>
      obtain ⟨trade, rfl, rfl⟩ := holds
      rfl
  | finished answer => exact (Prod.ext_iff.mp holds).1
  | _ => simp [committed] at done

theorem total_of_uncommitted {point : TradePoint}
    (holds : Holds performed before members point)
    (undone : point.committed = false) :
    members.totalTradesExecuted = before.totalTradesExecuted := by
  cases point with
  | counted | finished _ => simp [committed] at undone
  | pushTrade _ => exact congrArg TradeMembers.totalTradesExecuted holds.2
  | countTrade =>
      obtain ⟨_, _, rfl⟩ := holds
      rfl
  | copyTrade _ | testTrade _ _ =>
      exact congrArg TradeMembers.totalTradesExecuted holds.2.1

theorem committed_step {point : TradePoint} (inside : point.exit = none)
    (done : point.committed = true) (members : TradeMembers) :
    (point.step members).2.committed = true := by
  cases point with
  | counted => rfl
  | finished answer => simp [exit] at inside
  | _ => simp [committed] at done

theorem committed_of_exit {point : TradePoint} {answer : Answer}
    (exits : point.exit = some answer) : point.committed = true := by
  cases point with
  | finished answer => rfl
  | _ => simp [exit] at exits

theorem returns {point : TradePoint} {answer : Answer}
    (within : code.Within performed before members point)
    (exits : point.exit = some answer) :
    (members, answer) = before.perform performed := by
  have holds := holds_of_within within
  cases point with
  | finished answer =>
      cases exits
      exact holds
  | _ => simp [exit] at exits

theorem implements :
    code.Implements TradeMembers.perform TradeMembers.totalTradesExecuted
      committed where
  enters := fun performed => by cases performed <;> rfl
  stays := fun _ members inside done => committed_step inside done members
  exits := fun _ _ exits => committed_of_exit exits
  returns := fun _ _ _ _ _ within exits => returns within exits
  hidden := fun _ _ _ _ within undone =>
    total_of_uncommitted (holds_of_within within) undone
  shown := fun _ _ _ _ within done =>
    congrArg TradeMembers.totalTradesExecuted
      (members_of_committed (holds_of_within within) done)

end TradePoint

/-- The public operations apart from `registerOrderCallback`, which takes no
mutex. -/
inductive ManagerOperation where
  | placeOrder (order : Order)
  | cancelOrder (orderId : UInt64)
  | modifyOrder (orderId : UInt64) (newPrice : Rat) (newQuantity : UInt64)
  | getOrder (orderId : UInt64)
  | getActiveOrders
  | getOrderHistory
  | getOrdersBySymbol (symbol : String)
  | simulateOrderExecution (orderId : UInt64) (executionPrice : Rat)
      (executedQuantity : UInt64)
  | simulateTrade (trade : Trade)
  | getTotalOrdersPlaced
  | getTotalTradesExecuted
  | getTradeHistory
  | getTrade (tradeId : UInt64)

/-- The operations made one at a time. -/
def OrderManager.answer (manager : OrderManager) :
    ManagerOperation → OrderManager × Answer
  | .placeOrder order =>
      let call := manager.placeOrder order
      (call.manager, .placed call.notified call.result)
  | .cancelOrder orderId =>
      let call := manager.cancelOrder orderId
      (call.manager, .changed call.notified call.result)
  | .modifyOrder orderId newPrice newQuantity =>
      let call := manager.modifyOrder orderId newPrice newQuantity
      (call.manager, .changed call.notified call.result)
  | .getOrder orderId => (manager, .order (manager.getOrder orderId))
  | .getActiveOrders => (manager, .orders manager.getActiveOrders)
  | .getOrderHistory => (manager, .orders manager.getOrderHistory)
  | .getOrdersBySymbol symbol =>
      (manager, .orders (manager.getOrdersBySymbol symbol))
  | .simulateOrderExecution orderId executionPrice executedQuantity =>
      let call := manager.simulateOrderExecution orderId executionPrice
        executedQuantity
      (call.manager, .executed call.notified)
  | .simulateTrade trade => (manager.simulateTrade trade, .recorded)
  | .getTotalOrdersPlaced => (manager, .count manager.totalOrdersPlaced)
  | .getTotalTradesExecuted => (manager, .count manager.totalTradesExecuted)
  | .getTradeHistory => (manager, .trades manager.getTradeHistory)
  | .getTrade tradeId => (manager, .trade (manager.getTrade tradeId))

namespace ManagerMutex

abbrev Members : ManagerMutex → Type
  | .orderMutex => OrderMembers
  | .tradeMutex => TradeMembers

abbrev Point : ManagerMutex → Type
  | .orderMutex => OrderPoint
  | .tradeMutex => TradePoint

abbrev Section : ManagerMutex → Type
  | .orderMutex => OrderSection
  | .tradeMutex => TradeSection

def code : ∀ mutex : ManagerMutex,
    SectionCode mutex.Members mutex.Point mutex.Section Answer
  | .orderMutex => OrderPoint.code
  | .tradeMutex => TradePoint.code

/-- The atomic counter that is increased under the mutex. -/
def total : ∀ mutex : ManagerMutex, mutex.Members → UInt64
  | .orderMutex => OrderMembers.totalOrdersPlaced
  | .tradeMutex => TradeMembers.totalTradesExecuted

def perform : ∀ mutex : ManagerMutex,
    mutex.Members → mutex.Section → mutex.Members × Answer
  | .orderMutex => OrderMembers.perform
  | .tradeMutex => TradeMembers.perform

def committed : ∀ mutex : ManagerMutex, mutex.Point → Bool
  | .orderMutex => OrderPoint.committed
  | .tradeMutex => TradePoint.committed

theorem implements : ∀ mutex : ManagerMutex,
    mutex.code.Implements mutex.perform mutex.total mutex.committed
  | .orderMutex => OrderPoint.implements
  | .tradeMutex => TradePoint.implements

end ManagerMutex

def ManagerOperation.access :
    ManagerOperation → Access ManagerMutex ManagerMutex.Section
  | .placeOrder order => .locked .orderMutex (OrderSection.placeOrder order)
  | .cancelOrder orderId =>
      .locked .orderMutex (OrderSection.changePending orderId .cancel)
  | .modifyOrder orderId newPrice newQuantity =>
      .locked .orderMutex
        (OrderSection.changePending orderId (.modify newPrice newQuantity))
  | .getOrder orderId => .locked .orderMutex (OrderSection.getOrder orderId)
  | .getActiveOrders => .locked .orderMutex (OrderSection.list .active)
  | .getOrderHistory => .locked .orderMutex (OrderSection.list .history)
  | .getOrdersBySymbol symbol =>
      .locked .orderMutex (OrderSection.list (.bySymbol symbol))
  | .simulateOrderExecution orderId executionPrice executedQuantity =>
      .locked .orderMutex
        (OrderSection.simulateOrderExecution orderId executionPrice
          executedQuantity)
  | .simulateTrade trade =>
      .locked .tradeMutex (TradeSection.simulateTrade trade)
  | .getTotalOrdersPlaced => .atomic .orderMutex
  | .getTotalTradesExecuted => .atomic .tradeMutex
  | .getTradeHistory => .locked .tradeMutex TradeSection.getTradeHistory
  | .getTrade tradeId => .locked .tradeMutex (TradeSection.getTrade tradeId)

namespace ConcurrentManager

def object : LockedObject ManagerMutex.Members ManagerMutex.Point
    (fun _ => UInt64) ManagerMutex.Section ManagerOperation Answer where
  access := ManagerOperation.access
  code := ManagerMutex.code
  view := ManagerMutex.total
  read := fun _ total _ => .count total

def members (manager : OrderManager) : ∀ mutex : ManagerMutex, mutex.Members
  | .orderMutex => manager.orderMembers
  | .tradeMutex => manager.tradeMembers

def manager (members : ∀ mutex : ManagerMutex, mutex.Members) : OrderManager :=
  OrderManager.assemble (members .orderMutex) (members .tradeMutex)

def init (start : OrderManager) :
    ObjectState ManagerMutex.Members ManagerMutex.Point ManagerOperation Answer :=
  LockedObject.init (members start)

def machine (start : OrderManager) :=
  object.machine (members start)

/-- What the callers see of a run. -/
def history (start : OrderManager)
    (actions : List (ObjectAction ManagerOperation)) :
    List (CallEvent ManagerOperation Answer) :=
  (machine start).record LockedObject.observe (init start) actions

theorem performOrder_assemble (orders : OrderMembers) (trades : TradeMembers)
    (performed : OrderSection) :
    (OrderManager.assemble orders trades).performOrder performed =
      (OrderManager.assemble (orders.perform performed).1 trades,
        (orders.perform performed).2) := by
  cases performed with
  | placeOrder order => rfl
  | changePending orderId change =>
      by_cases pending : OrderPoint.pendingAt orders orderId = true
      · obtain ⟨order, found, status⟩ := OrderPoint.pendingAt_eq_true.mp pending
        rw [OrderMembers.perform_pending found status]
        cases change <;>
          simp [OrderManager.performOrder, OrderManager.performChange,
            OrderManager.cancelOrder, OrderManager.modifyOrder,
            OrderManager.changePending, OrderManager.assemble, found, status,
            PendingChange.apply]
      · have settled : ∀ order, orders.orders[orderId]? = some order →
            order.status ≠ .pending := fun order found status =>
          pending (OrderPoint.pendingAt_eq_true.mpr ⟨order, found, status⟩)
        rw [OrderMembers.perform_settled settled]
        have unchanged :=
          (OrderManager.assemble orders trades).changePending_settled settled
        cases change <;>
          simp [OrderManager.performOrder, OrderManager.performChange,
            OrderManager.cancelOrder, OrderManager.modifyOrder, unchanged]
  | simulateOrderExecution orderId executionPrice executedQuantity =>
      cases found : orders.orders[orderId]? with
      | none =>
          rw [OrderMembers.perform_unexecuted found]
          simp [OrderManager.performOrder, OrderManager.simulateOrderExecution,
            OrderManager.assemble, found]
      | some order =>
          rw [OrderMembers.perform_executed found]
          simp [OrderManager.performOrder, OrderManager.simulateOrderExecution,
            OrderManager.assemble, found]
  | getOrder orderId => rfl
  | list listing => rfl

theorem answer_simulates (members : ∀ mutex : ManagerMutex, mutex.Members)
    (operation : ManagerOperation) :
    (manager members).answer operation =
      (manager (object.sequential ManagerMutex.perform members operation).1,
        (object.sequential ManagerMutex.perform members operation).2) := by
  cases operation with
  | cancelOrder orderId =>
      exact performOrder_assemble (members .orderMutex) (members .tradeMutex)
        (.changePending orderId .cancel)
  | modifyOrder orderId newPrice newQuantity =>
      exact performOrder_assemble (members .orderMutex) (members .tradeMutex)
        (.changePending orderId (.modify newPrice newQuantity))
  | simulateOrderExecution orderId executionPrice executedQuantity =>
      exact performOrder_assemble (members .orderMutex) (members .tradeMutex)
        (.simulateOrderExecution orderId executionPrice executedQuantity)
  | _ => rfl

/-- However the statements of overlapping calls interleave, there is one order
of the calls, in keeping with when they were invoked and returned, in which
each call made on its own returns what it returned, the counters read without a
lock included. -/
theorem calls_linearizable (start : OrderManager)
    {actions : List (ObjectAction ManagerOperation)}
    {final : ObjectState ManagerMutex.Members ManagerMutex.Point
      ManagerOperation Answer}
    (ran : (machine start).run (init start) actions = some final) :
    Linearizable OrderManager.answer start (history start actions) :=
  (LockedObject.linearizable ManagerMutex.implements ran).map answer_simulates

private def placed : Order where
  orderId := 0
  symbol := "AAPL"
  side := .buy
  orderType := .limit
  price := 100
  quantity := 100
  filledQuantity := 0
  status := .pending
  createdAt := default
  filledAt := default
  commission := 0
  clientOrderId := ""

/-- The counter is read after the order is stored and before it is counted. -/
private def overlapping : List (ObjectAction ManagerOperation) :=
  [.invoke (.placeOrder placed), .invoke .getTotalOrdersPlaced] ++
    List.replicate 4 (.advance 0) ++ List.replicate 2 (.advance 1) ++
    List.replicate 4 (.advance 0)

theorem calls_linearizable_overlapping :
    history OrderManager.init overlapping =
        [.invoked 0 (.placeOrder placed), .invoked 1 .getTotalOrdersPlaced,
          .returned 1 (.count 0),
          .returned 0 (.placed (some { placed with orderId := 1000 }) 1000)] ∧
      Linearizable OrderManager.answer OrderManager.init
        (history OrderManager.init overlapping) := by
  have ran : (machine OrderManager.init).run (init OrderManager.init)
      overlapping = some _ := rfl
  exact ⟨rfl, calls_linearizable OrderManager.init ran⟩

end ConcurrentManager

end TradingBot
