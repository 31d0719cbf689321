import TradingBot.Library.LockOrder

namespace TradingBot

open Library

/-! The mutexes of the four components and the order in which each public
operation takes them.  What an operation does apart from locking is left out;
where it branches, the branch is an argument. -/

inductive Mutex where
  | dataMutex
  | orderMutex
  | tradeMutex
  | queueMutex
  | statsMutex
  | positionMutex
  | pnlMutex
  deriving DecidableEq

/-- A mutex is only ever taken while holding ones of lower rank. -/
def Mutex.rank : Mutex → Nat
  | .dataMutex => 0
  | .orderMutex => 1
  | .tradeMutex | .queueMutex | .statsMutex | .positionMutex | .pnlMutex => 2

/-- A `lock_guard` scope that takes no other mutex. -/
def guarded (mutex : Mutex) : List (LockStep Mutex) :=
  locked mutex []

inductive RiskOperation where
  | setRiskLimits
  | getRiskLimits
  | updatePosition
  | closePosition
  | getPosition
  | getAllPositions
  | getRealizedPnL
  | getUnrealizedPnL
  | getTotalPnL
  | getPortfolioSnapshot
  | getMaxDrawdown
  | getWinRate
  | canOpenPosition (withinLimit : Bool)
  | canPlaceOrder
  | calculateRequiredCapital
  | updateMarketPrice
  deriving DecidableEq

def RiskOperation.locks : RiskOperation → List (LockStep Mutex)
  | .setRiskLimits | .getRiskLimits => []
  | .updatePosition | .closePosition => guarded .positionMutex
  | .getPosition | .getAllPositions => guarded .positionMutex
  | .getRealizedPnL => guarded .pnlMutex
  | .getUnrealizedPnL => guarded .positionMutex
  | .getTotalPnL => guarded .pnlMutex ++ guarded .positionMutex
  | .getPortfolioSnapshot =>
      guarded .positionMutex ++
        (guarded .pnlMutex ++ guarded .positionMutex) ++
        guarded .pnlMutex ++ guarded .positionMutex ++ guarded .positionMutex
  | .getMaxDrawdown => guarded .pnlMutex
  | .getWinRate => guarded .tradeMutex
  | .canOpenPosition withinLimit =>
      if withinLimit then guarded .positionMutex else []
  | .canPlaceOrder | .calculateRequiredCapital => []
  | .updateMarketPrice => guarded .positionMutex

/-- A mutating operation of the `OrderManager`, with what its callbacks call:
nothing where it does not notify. -/
def orderChange (callbacks : List RiskOperation) : List (LockStep Mutex) :=
  locked .orderMutex (callbacks.flatMap RiskOperation.locks)

/-- The public operations apart from `start`, `stop`, `publishTick` and
`publishOrderBook`. -/
inductive Operation where
  | subscribe
  | unsubscribe
  | getLatestTick
  | getLatestOrderBook
  | getTickHistory
  | calculateVolatility
  | calculateMomentum
  | calculateRSI
  | placeOrder (callbacks : List RiskOperation)
  | cancelOrder (callbacks : List RiskOperation)
  | modifyOrder (callbacks : List RiskOperation)
  | getOrder
  | getActiveOrders
  | getOrderHistory
  | getOrdersBySymbol
  | registerOrderCallback
  | simulateOrderExecution (callbacks : List RiskOperation)
  | simulateTrade
  | getTotalOrdersPlaced
  | getTotalTradesExecuted
  | getTradeHistory
  | getTrade
  | submitOrder
  | getAverageLatency
  | getExecutedOrdersCount
  | getMaxLatency
  | getMinLatency
  | risk (operation : RiskOperation)
  deriving DecidableEq

def Operation.locks : Operation → List (LockStep Mutex)
  | .subscribe | .unsubscribe => guarded .dataMutex
  | .getLatestTick | .getLatestOrderBook | .getTickHistory =>
      guarded .dataMutex
  | .calculateVolatility | .calculateMomentum | .calculateRSI =>
      guarded .dataMutex
  | .placeOrder callbacks => orderChange callbacks
  | .cancelOrder callbacks => orderChange callbacks
  | .modifyOrder callbacks => orderChange callbacks
  | .getOrder | .getActiveOrders => guarded .orderMutex
  | .getOrderHistory | .getOrdersBySymbol => guarded .orderMutex
  | .registerOrderCallback => []
  | .simulateOrderExecution callbacks => orderChange callbacks
  | .simulateTrade => guarded .tradeMutex
  | .getTotalOrdersPlaced | .getTotalTradesExecuted => []
  | .getTradeHistory | .getTrade => guarded .tradeMutex
  | .submitOrder => guarded .queueMutex
  | .getAverageLatency | .getExecutedOrdersCount => guarded .statsMutex
  | .getMaxLatency | .getMinLatency => guarded .statsMutex
  | .risk operation => operation.locks

/-- `DemoStrategyListener::onTick`; a signal comes with what the callbacks of its
`placeOrder` call. -/
def onTick (signal : Option (List RiskOperation)) : List (LockStep Mutex) :=
  match signal with
  | none => []
  | some callbacks =>
      (Operation.placeOrder callbacks).locks ++ Operation.submitOrder.locks

/-- `onTick` of each live listener runs under `dataMutex`. -/
def publishTick (signals : List (Option (List RiskOperation))) :
    List (LockStep Mutex) :=
  locked .dataMutex (signals.flatMap onTick)

/-- `onOrderBook` does nothing. -/
def publishOrderBook : List (LockStep Mutex) :=
  guarded .dataMutex

/-- A request that `executionLoop` takes: whether its quantity is positive, and
what the callbacks of `simulateOrderExecution` then call. -/
inductive Taken where
  | empty
  | filled (callbacks : List RiskOperation)
  deriving DecidableEq

def executeOrder (taken : Taken) : List (LockStep Mutex) :=
  Operation.getLatestTick.locks ++
    (match taken with
    | .empty => []
    | .filled callbacks =>
        (Operation.simulateOrderExecution callbacks).locks ++
          Operation.simulateTrade.locks) ++
    guarded .statsMutex

/-- `queueCV.wait` releases the mutex, blocks and takes it again. -/
def wait : List (LockStep Mutex) :=
  [.release .queueMutex, .block, .acquire .queueMutex]

/-- One pass of `executionLoop`, which takes a request unless it finds the queue
empty. -/
def executionPass (waits : Nat) (taken : Option Taken) :
    List (LockStep Mutex) :=
  locked .queueMutex (List.replicate waits wait).flatten ++
    taken.elim [] executeOrder

inductive ThreadName where
  | market
  | execution
  | client (number : Nat)
  deriving DecidableEq

inductive ThreadCall where
  | publishTick (signals : List (Option (List RiskOperation)))
  | publishOrderBook
  | executionPass (waits : Nat) (taken : Option Taken)
  | operation (performed : Operation)
  deriving DecidableEq

namespace ThreadCall

def locks : ThreadCall → List (LockStep Mutex)
  | .publishTick signals => TradingBot.publishTick signals
  | .publishOrderBook => TradingBot.publishOrderBook
  | .executionPass waits taken => TradingBot.executionPass waits taken
  | .operation performed => performed.locks

def allowed : ThreadName → ThreadCall → Bool
  | .market, .publishTick _ => true
  | .market, .publishOrderBook => true
  | .execution, .executionPass _ _ => true
  | .client _, .operation _ => true
  | _, _ => false

end ThreadCall

abbrev LockingThreads := LockState ThreadName Mutex

def lockMachine :
    Machine LockingThreads (LockAction ThreadName ThreadCall) :=
  LockState.machine ThreadCall.locks ThreadCall.allowed

section Order

variable {held : Set Mutex}

/-- All held mutexes rank below a bound. -/
def Below (bound : Nat) (held : Set Mutex) : Prop :=
  ∀ mutex ∈ held, mutex.rank < bound

theorem below_empty (bound : Nat) : Below bound ∅ := fun _ member =>
  member.elim

theorem Below.mono {bound above : Nat} (below : Below bound held)
    (le : bound ≤ above) : Below above held := fun mutex member =>
  (below mutex member).trans_le le

theorem Below.insert {mutex : Mutex} (below : Below mutex.rank held) :
    Below (mutex.rank + 1) (insert mutex held) := by
  intro other member
  rcases member with rfl | member
  · exact Nat.lt_succ_self _
  · exact (below other member).trans (Nat.lt_succ_self _)

theorem steady_locked {mutex : Mutex} (below : Below mutex.rank held)
    {body : List (LockStep Mutex)}
    (inside : ∀ inner, Below (mutex.rank + 1) inner →
      Steady Mutex.rank inner body) :
    Steady Mutex.rank held (locked mutex body) :=
  Steady.locked below (inside _ below.insert)

theorem steady_guarded {mutex : Mutex} (below : Below mutex.rank held) :
    Steady Mutex.rank held (guarded mutex) :=
  steady_locked below fun _ _ => steady_nil

theorem RiskOperation.steady_locks (operation : RiskOperation)
    (below : Below 2 held) : Steady Mutex.rank held operation.locks := by
  have position : Steady Mutex.rank held (guarded .positionMutex) :=
    steady_guarded below
  have pnl : Steady Mutex.rank held (guarded .pnlMutex) :=
    steady_guarded below
  have trade : Steady Mutex.rank held (guarded .tradeMutex) :=
    steady_guarded below
  cases operation with
  | setRiskLimits | getRiskLimits => exact steady_nil
  | canPlaceOrder | calculateRequiredCapital => exact steady_nil
  | updatePosition | closePosition | getPosition => exact position
  | getAllPositions | getUnrealizedPnL | updateMarketPrice => exact position
  | getRealizedPnL | getMaxDrawdown => exact pnl
  | getTotalPnL => exact pnl.append position
  | getPortfolioSnapshot =>
      exact (((position.append (pnl.append position)).append pnl).append
        position).append position
  | getWinRate => exact trade
  | canOpenPosition withinLimit =>
      cases withinLimit with
      | false => exact steady_nil
      | true => exact position

theorem steady_orderChange (callbacks : List RiskOperation)
    (below : Below 1 held) :
    Steady Mutex.rank held (orderChange callbacks) := by
  have free : Below Mutex.orderMutex.rank held := below
  exact steady_locked free fun _ inner =>
    steady_flatMap fun operation _ => operation.steady_locks inner

theorem Operation.steady_locks (operation : Operation) :
    Steady Mutex.rank ∅ operation.locks := by
  cases operation with
  | placeOrder callbacks | cancelOrder callbacks | modifyOrder callbacks
  | simulateOrderExecution callbacks =>
      exact steady_orderChange callbacks (below_empty _)
  | registerOrderCallback | getTotalOrdersPlaced | getTotalTradesExecuted =>
      exact steady_nil
  | risk operation => exact operation.steady_locks (below_empty _)
  | _ => exact steady_guarded (below_empty _)

theorem steady_onTick (signal : Option (List RiskOperation))
    (below : Below 1 held) : Steady Mutex.rank held (onTick signal) := by
  cases signal with
  | none => exact steady_nil
  | some callbacks =>
      have free : Below Mutex.queueMutex.rank held := below.mono (by decide)
      exact (steady_orderChange callbacks below).append (steady_guarded free)

theorem steady_publishTick (signals : List (Option (List RiskOperation))) :
    Steady Mutex.rank ∅ (publishTick signals) := by
  have free : Below Mutex.dataMutex.rank ∅ := below_empty _
  exact steady_locked free fun _ inner =>
    steady_flatMap fun signal _ => steady_onTick signal inner

theorem steady_executeOrder (taken : Taken) :
    Steady Mutex.rank ∅ (executeOrder taken) := by
  have quoted := Operation.getLatestTick.steady_locks
  have recorded : Steady Mutex.rank ∅ (guarded .statsMutex) :=
    steady_guarded (below_empty _)
  cases taken with
  | empty => exact (quoted.append steady_nil).append recorded
  | filled callbacks =>
      have filled := (Operation.simulateOrderExecution callbacks).steady_locks
      have traded := Operation.simulateTrade.steady_locks
      exact (quoted.append (filled.append traded)).append recorded

/-- Waiting gives the mutex up and takes it again with nothing else held. -/
theorem steady_wait : Steady Mutex.rank {.queueMutex} wait := by
  intro rest ordered
  have released : ({.queueMutex} : Set Mutex) \ {.queueMutex} = ∅ :=
    sdiff_self
  refine ⟨rfl, ?_⟩
  rw [released]
  refine ⟨below_empty _, ?_⟩
  rw [insert_empty_eq]
  exact ordered

theorem steady_waits (waits : Nat) :
    Steady Mutex.rank {.queueMutex} (List.replicate waits wait).flatten := by
  induction waits with
  | zero => exact steady_nil
  | succ waits induction =>
      rw [List.replicate_succ, List.flatten_cons]
      exact steady_wait.append induction

theorem steady_executionPass (waits : Nat) (taken : Option Taken) :
    Steady Mutex.rank ∅ (executionPass waits taken) := by
  have free : Below Mutex.queueMutex.rank ∅ := below_empty _
  have waiting : Steady Mutex.rank (insert .queueMutex ∅)
      (List.replicate waits wait).flatten := by
    rw [insert_empty_eq]
    exact steady_waits waits
  have locked := Steady.locked free waiting
  cases taken with
  | none => exact locked.append steady_nil
  | some taken => exact locked.append (steady_executeOrder taken)

theorem ThreadCall.ordered_locks (call : ThreadCall) :
    Ordered Mutex.rank ∅ call.locks := by
  apply Steady.ordered
  cases call with
  | publishTick signals => exact steady_publishTick signals
  | publishOrderBook => exact steady_guarded (below_empty _)
  | executionPass waits taken => exact steady_executionPass waits taken
  | operation performed => exact performed.steady_locks

end Order

/-- Whatever the threads call and however their steps interleave, no thread
requests a mutex it holds and no threads wait for one another in a cycle. -/
theorem lockMachine_deadlock_free {state : LockingThreads}
    (reached : lockMachine.Reachable state) :
    (∀ thread mutex, state.Requests thread mutex →
        state.owner mutex ≠ some thread) ∧
      ∀ thread, ¬ Relation.TransGen state.WaitsFor thread thread :=
  LockState.deadlock_free ThreadCall.ordered_locks reached

/-- A callback of the market thread updates a position under `dataMutex` and
`orderMutex` while the other threads want one mutex each. -/
private def contended : List (LockAction ThreadName ThreadCall) :=
  [.call .execution (.executionPass 1 (some .empty))] ++
    List.replicate 5 (.advance .execution) ++
    [.call .market (.publishTick [some [.updatePosition]])] ++
    List.replicate 3 (.advance .market) ++
    [.call (.client 0) (.operation (.cancelOrder [])),
      .call (.client 1) (.operation (.risk .getTotalPnL)),
      .advance (.client 1), .advance (.client 1)]

theorem lockMachine_deadlock_free_contended :
    ∃ state, lockMachine.run lockMachine.init contended = some state ∧
      state.WaitsFor .execution .market ∧
      state.WaitsFor (.client 0) .market ∧
      state.WaitsFor (.client 1) .market ∧
      ¬ Relation.TransGen state.WaitsFor .market .market := by
  refine ⟨_, rfl, ?_, ?_, ?_, ?_⟩
  · exact ⟨.dataMutex, ⟨_, rfl⟩, rfl⟩
  · exact ⟨.orderMutex, ⟨_, rfl⟩, rfl⟩
  · exact ⟨.positionMutex, ⟨_, rfl⟩, rfl⟩
  · exact (lockMachine_deadlock_free ⟨contended, rfl⟩).2 .market

end TradingBot
