import TradingBot.Locks

namespace TradingBot

open Library

/-! What the callbacks of the `OrderManager` and the `onTick` of a listener may
call without a deadlock. -/

/-- A mutating operation whose callbacks call any operations. -/
def changeOrderCalling (called : List Operation) : List (LockStep Mutex) :=
  locked .orderMutex (called.flatMap Operation.locks)

/-- An operation of a program whose order callbacks call some operations; they
take the place of what a mutating operation says of its callbacks. -/
def Operation.locksCalling (called : List Operation) :
    Operation → List (LockStep Mutex)
  | .placeOrder _ | .cancelOrder _ | .modifyOrder _
  | .simulateOrderExecution _ => changeOrderCalling called
  | operation => operation.locks

/-- `onTick` of a listener that makes calls of its own and may place an
order. -/
def onTickCalling (called heard : List Operation) (signals : Bool) :
    List (LockStep Mutex) :=
  heard.flatMap (Operation.locksCalling called) ++
    if signals then changeOrderCalling called ++ Operation.submitOrder.locks
    else []

inductive CallbackCall where
  | publishTick (signals : List Bool)
  | publishOrderBook
  | executeOrder
  | operation (performed : Operation)
  deriving DecidableEq

namespace CallbackCall

def locks (called heard : List Operation) :
    CallbackCall → List (LockStep Mutex)
  | .publishTick signals =>
      locked .dataMutex (signals.flatMap (onTickCalling called heard))
  | .publishOrderBook => TradingBot.publishOrderBook
  | .executeOrder =>
      Operation.getLatestTick.locks ++
        (changeOrderCalling called ++ Operation.simulateTrade.locks) ++
        guarded .statsMutex
  | .operation performed => performed.locksCalling called

def allowed : ThreadName → CallbackCall → Bool
  | .market, .publishTick _ => true
  | .market, .publishOrderBook => true
  | .execution, .executeOrder => true
  | .client _, .operation _ => true
  | _, _ => false

end CallbackCall

/-- The threads of a program whose order callbacks call some operations and
whose listeners call others. -/
def callbackMachine (called heard : List Operation) :
    Machine LockingThreads (LockAction ThreadName CallbackCall) :=
  LockState.machine (CallbackCall.locks called heard) CallbackCall.allowed

/-- No thread requests a mutex that it holds, and no threads wait for one
another in a cycle. -/
def DeadlockFree (state : LockingThreads) : Prop :=
  (∀ thread mutex, state.Requests thread mutex →
      state.owner mutex ≠ some thread) ∧
    ∀ thread, ¬ Relation.TransGen state.WaitsFor thread thread

/-- Callbacks may not use `orderMutex`, under which they run, nor `dataMutex`,
under which a listener may be placing an order; a listener may not use
`dataMutex`, under which it runs. -/
structure CallbacksAllowed (called heard : List Operation) : Prop where
  orders : ∀ operation ∈ called, ¬ Uses .orderMutex operation.locks
  data : ∀ operation ∈ called, ¬ Uses .dataMutex operation.locks
  listeners : ∀ operation ∈ heard, ¬ Uses .dataMutex operation.locks

/-- Steps that only take mutexes of the highest rank, and give them back. -/
structure Light (steps : List (LockStep Mutex)) : Prop where
  steady : ∀ held, Below 2 held → Steady Mutex.rank held steps
  rank : ∀ mutex, Uses mutex steps → mutex.rank = 2

section Light

theorem light_nil : Light [] where
  steady := fun _ _ => steady_nil
  rank := fun _ uses => (uses_nil uses).elim

theorem light_guarded {mutex : Mutex} (high : mutex.rank = 2) :
    Light (guarded mutex) where
  steady := fun held below => steady_guarded (high ▸ below)
  rank := fun other uses => by
    rcases uses_locked.mp uses with rfl | inside
    · exact high
    · exact (uses_nil inside).elim

theorem Light.append {first second : List (LockStep Mutex)}
    (left : Light first) (right : Light second) : Light (first ++ second) where
  steady := fun held below =>
    (left.steady held below).append (right.steady held below)
  rank := fun mutex uses =>
    (uses_append.mp uses).elim (left.rank mutex) (right.rank mutex)

theorem light_flatMap {β : Type*} {entries : List β}
    {steps : β → List (LockStep Mutex)}
    (each : ∀ entry ∈ entries, Light (steps entry)) :
    Light (entries.flatMap steps) where
  steady := fun held below => steady_flatMap fun entry member =>
    (each entry member).steady held below
  rank := fun mutex uses => by
    obtain ⟨entry, member, inside⟩ := uses_flatMap.mp uses
    exact (each entry member).rank mutex inside

theorem RiskOperation.light_locks (operation : RiskOperation) :
    Light operation.locks := by
  have position : Light (guarded .positionMutex) := light_guarded rfl
  have pnl : Light (guarded .pnlMutex) := light_guarded rfl
  cases operation with
  | setRiskLimits | getRiskLimits => exact light_nil
  | canPlaceOrder | calculateRequiredCapital => exact light_nil
  | updatePosition | closePosition | getPosition => exact position
  | getAllPositions | getUnrealizedPnL | updateMarketPrice => exact position
  | getRealizedPnL | getMaxDrawdown => exact pnl
  | getTotalPnL => exact pnl.append position
  | getPortfolioSnapshot =>
      exact (((position.append (pnl.append position)).append pnl).append
        position).append position
  | getWinRate => exact light_guarded rfl
  | canOpenPosition withinLimit =>
      cases withinLimit with
      | false => exact light_nil
      | true => exact position

/-- An operation takes `dataMutex`, or `orderMutex` around what the callbacks
take, or neither. -/
theorem Operation.locks_cases (called : List Operation)
    (operation : Operation) :
    (operation.locks = guarded .dataMutex ∧
        operation.locksCalling called = guarded .dataMutex) ∨
      (∃ callbacks callees, operation.locks = orderChange callbacks ∧
        operation.locksCalling called = changeOrderCalling callees ∧
        ∀ other ∈ callees, other ∈ called) ∨
      (Light operation.locks ∧
        operation.locksCalling called = operation.locks) := by
  cases operation with
  | subscribe | unsubscribe | getLatestTick | getLatestOrderBook
  | getTickHistory | calculateVolatility | calculateMomentum | calculateRSI =>
      exact .inl ⟨rfl, rfl⟩
  | placeOrder callbacks | cancelOrder callbacks | modifyOrder callbacks
  | simulateOrderExecution callbacks =>
      exact .inr (.inl ⟨callbacks, called, rfl, rfl, fun _ member => member⟩)
  | getOrder | getActiveOrders | getOrderHistory | getOrdersBySymbol =>
      exact .inr (.inl ⟨[], [], rfl, rfl, by simp⟩)
  | registerOrderCallback | getTotalOrdersPlaced | getTotalTradesExecuted =>
      exact .inr (.inr ⟨light_nil, rfl⟩)
  | risk operation => exact .inr (.inr ⟨operation.light_locks, rfl⟩)
  | _ => exact .inr (.inr ⟨light_guarded rfl, rfl⟩)

theorem uses_orderChange {mutex : Mutex} {callbacks : List RiskOperation}
    (uses : Uses mutex (orderChange callbacks)) :
    mutex = .orderMutex ∨ mutex.rank = 2 := by
  rcases uses_locked.mp uses with same | inside
  · exact .inl same
  · obtain ⟨operation, _, taken⟩ := uses_flatMap.mp inside
    exact .inr (operation.light_locks.rank mutex taken)

theorem Operation.starts_of_uses_data (called : List Operation)
    {operation : Operation} (uses : Uses .dataMutex operation.locks) :
    operation.locks = guarded .dataMutex ∧
      operation.locksCalling called = guarded .dataMutex := by
  rcases operation.locks_cases called with
    data | ⟨callbacks, _, order, _⟩ | ⟨light, _⟩
  · exact data
  · rw [order] at uses
    rcases uses_orderChange uses with same | rank
    · cases same
    · cases rank
  · cases light.rank _ uses

theorem Operation.starts_of_uses_order {operation : Operation}
    (uses : Uses .orderMutex operation.locks) :
    ∃ callbacks, operation.locks = orderChange callbacks := by
  rcases operation.locks_cases [] with
    ⟨data, _⟩ | ⟨callbacks, _, order, _⟩ | ⟨light, _⟩
  · rw [data] at uses
    rcases uses_locked.mp uses with same | inside
    · cases same
    · exact (uses_nil inside).elim
  · exact ⟨callbacks, order⟩
  · cases light.rank _ uses

theorem Operation.light_of_uses_neither {operation : Operation}
    (noOrder : ¬ Uses .orderMutex operation.locks)
    (noData : ¬ Uses .dataMutex operation.locks) : Light operation.locks := by
  rcases operation.locks_cases [] with
    ⟨data, _⟩ | ⟨callbacks, _, order, _⟩ | ⟨light, _⟩
  · exact absurd (by simp [data, guarded]) noData
  · exact absurd (by simp [order, orderChange]) noOrder
  · exact light

end Light

section Sufficient

variable {called heard : List Operation} {held : Set Mutex}

/-- The operations use neither `orderMutex` nor `dataMutex`. -/
def CalleesLight (called : List Operation) : Prop :=
  ∀ operation ∈ called, Light operation.locks

theorem CallbacksAllowed.callees (allowed : CallbacksAllowed called heard) :
    CalleesLight called := fun operation member =>
  operation.light_of_uses_neither (allowed.orders operation member)
    (allowed.data operation member)

theorem CalleesLight.steady_changeOrder (light : CalleesLight called)
    (below : Below 1 held) :
    Steady Mutex.rank held (changeOrderCalling called) := by
  have free : Below Mutex.orderMutex.rank held := below
  exact steady_locked free fun inner innerBelow =>
    (light_flatMap light).steady inner innerBelow

theorem CalleesLight.steady_of_no_data (light : CalleesLight called)
    {operation : Operation} (below : Below 1 held)
    (noData : ¬ Uses .dataMutex operation.locks) :
    Steady Mutex.rank held (operation.locksCalling called) := by
  rcases operation.locks_cases called with
    ⟨data, _⟩ | ⟨_, callees, _, order, among⟩ | ⟨operationLight, same⟩
  · exact absurd (by simp [data, guarded]) noData
  · rw [order]
    have calleesLight : CalleesLight callees := fun other member =>
      light other (among other member)
    exact calleesLight.steady_changeOrder below
  · rw [same]
    exact operationLight.steady held (below.mono (by decide))

theorem CalleesLight.steady_locksCalling (light : CalleesLight called)
    (operation : Operation) :
    Steady Mutex.rank ∅ (operation.locksCalling called) := by
  by_cases data : Uses .dataMutex operation.locks
  · rw [(Operation.starts_of_uses_data called data).2]
    exact steady_guarded (below_empty _)
  · exact light.steady_of_no_data (below_empty _) data

theorem CallbacksAllowed.ordered_locks
    (allowed : CallbacksAllowed called heard) (call : CallbackCall) :
    Ordered Mutex.rank ∅ (call.locks called heard) := by
  have light := allowed.callees
  apply Steady.ordered
  cases call with
  | publishTick signals =>
      have free : Below Mutex.dataMutex.rank ∅ := below_empty _
      refine steady_locked free fun inner innerBelow =>
        steady_flatMap fun signal _ => Steady.append
          (steady_flatMap fun operation member =>
            light.steady_of_no_data innerBelow
              (allowed.listeners operation member)) ?_
      split
      next =>
          have queue : Below Mutex.queueMutex.rank inner :=
            innerBelow.mono (by decide)
          exact (light.steady_changeOrder innerBelow).append
            (steady_guarded queue)
      next => exact steady_nil
  | publishOrderBook => exact steady_guarded (below_empty _)
  | executeOrder =>
      exact (Operation.getLatestTick.steady_locks.append
        ((light.steady_changeOrder (below_empty _)).append
          Operation.simulateTrade.steady_locks)).append
        (steady_guarded (below_empty _))
  | operation performed => exact light.steady_locksCalling performed

end Sufficient

section Necessary

variable {called heard : List Operation}

/-- The first entry with a property, and what is before it. -/
private theorem exists_first {α : Type*} (property : α → Prop)
    [DecidablePred property] {entries : List α}
    (met : ∃ entry ∈ entries, property entry) :
    ∃ before entry after, entries = before ++ entry :: after ∧
      property entry ∧ ∀ other ∈ before, ¬ property other := by
  have found : (entries.find? fun entry => decide (property entry)).isSome := by
    simpa [List.find?_isSome] using met
  obtain ⟨entry, found⟩ := Option.isSome_iff_exists.mp found
  obtain ⟨holds, before, after, split, none⟩ :=
    List.find?_eq_some_iff_append.mp found
  exact ⟨before, entry, after, split, by simpa using holds, by simpa using none⟩

/-- A thread that has begun a section runs through its first steps. -/
theorem reaches_inside (thread : ThreadName) {state : LockingThreads}
    {call : CallbackCall} (allowed : CallbackCall.allowed thread call = true)
    (reached : (callbackMachine called heard).Reachable state)
    (idle : state.program thread = []) {mutex : Mutex}
    (free : state.owner mutex = none)
    {before after : List (LockStep Mutex)}
    (program : call.locks called heard = .acquire mutex :: before ++ after)
    (steady : Steady Mutex.rank {mutex} before)
    (unclaimed : ∀ key other, other ≠ thread → state.owner key = some other →
      .acquire key ∉ before)
    (nothing : state.held thread = ∅) :
    ∃ final, (callbackMachine called heard).Reachable final ∧
      final.program thread = after ∧ final.held thread = {mutex} ∧
      ∀ other ≠ thread, final.program other = state.program other ∧
        final.held other = state.held other := by
  have ordered : Ordered Mutex.rank {mutex} (before ++ [.release mutex]) :=
    steady _ ⟨rfl, sdiff_self⟩
  have ordered : Ordered Mutex.rank (state.held thread)
      (.acquire mutex :: before ++ [.release mutex]) := by
    rw [nothing]
    refine ⟨below_empty _, ?_⟩
    rw [insert_empty_eq]
    exact ordered
  let begun := state.setProgram thread (call.locks called heard)
  have called' : (callbackMachine called heard).step state (.call thread call) =
      some begun := if_pos ⟨by simp [idle], allowed⟩
  have own : begun.program thread = .acquire mutex :: before ++ after := by
    rw [← program]
    exact Function.update_self _ _ _
  obtain ⟨final, ran, rest, finalOrdered, others⟩ := LockState.runs_through
    (CallbackCall.locks called heard) CallbackCall.allowed own ordered
    fun key other differ owns member => by
      rcases List.mem_cons.mp member with same | inside
      · cases same
        have owned : state.owner mutex = some other := owns
        rw [free] at owned
        cases owned
      · exact unclaimed key other differ owns inside
  refine ⟨final, (reached.step _ called').run ran, rest,
    LockState.held_of_ordered_release finalOrdered, fun other differ => ?_⟩
  obtain ⟨sameProgram, sameHeld⟩ := others other differ
  exact ⟨sameProgram.trans (Function.update_of_ne differ _ _), sameHeld⟩

theorem held_init (thread : ThreadName) :
    (callbackMachine called heard).init.held thread = ∅ := by
  ext mutex
  simp [callbackMachine, LockState.machine, LockState.init, LockState.held]

theorem unclaimed_init {thread : ThreadName} {before : List (LockStep Mutex)} :
    ∀ key other, other ≠ thread →
      (callbackMachine called heard).init.owner key = some other →
        .acquire key ∉ before := by
  intro key other _ owns
  cases owns

theorem owner_eq_none {state : LockingThreads} {mutex : Mutex}
    (unheld : ∀ thread, mutex ∉ state.held thread) :
    state.owner mutex = none := by
  cases owner : state.owner mutex with
  | none => rfl
  | some thread => exact absurd owner (unheld thread)

theorem not_deadlockFree_of_self_request {state : LockingThreads}
    {thread : ThreadName} {mutex : Mutex} {rest : List (LockStep Mutex)}
    (program : state.program thread = .acquire mutex :: rest)
    (held : state.held thread = {mutex}) : ¬ DeadlockFree state := by
  intro free
  have owns : mutex ∈ state.held thread := held ▸ rfl
  exact free.1 thread mutex ⟨rest, program⟩ owns

/-- A listener that uses `dataMutex` waits for itself. -/
theorem listener_blocks (light : CalleesLight called)
    (uses : ∃ operation ∈ heard, Uses .dataMutex operation.locks) :
    ∃ state, (callbackMachine called heard).Reachable state ∧
      ¬ DeadlockFree state := by
  obtain ⟨before, operation, after, rfl, usesData, noneBefore⟩ :=
    exists_first (fun operation : Operation => Uses .dataMutex operation.locks) uses
  have below : Below 1 {Mutex.dataMutex} := by
    rintro mutex rfl
    decide
  have steady : Steady Mutex.rank {Mutex.dataMutex}
      (before.flatMap (Operation.locksCalling called)) :=
    steady_flatMap fun other member =>
      light.steady_of_no_data below (noneBefore other member)
  have program : (CallbackCall.publishTick [false]).locks called
      (before ++ operation :: after) =
        .acquire .dataMutex :: before.flatMap (Operation.locksCalling called) ++
          (.acquire .dataMutex :: .release .dataMutex ::
            (after.flatMap (Operation.locksCalling called) ++
              [.release .dataMutex])) := by
    simp [CallbackCall.locks, onTickCalling, locked, guarded,
      (Operation.starts_of_uses_data called usesData).2]
  obtain ⟨state, reached, waits, held, _⟩ :=
    reaches_inside .market rfl Library.Machine.Reachable.init rfl rfl
      program steady unclaimed_init (held_init _)
  exact ⟨state, reached, not_deadlockFree_of_self_request waits held⟩

/-- Whatever a listener calls, a tick that makes it place an order comes to
request `dataMutex` or `orderMutex` after steps that take neither. -/
theorem exists_low_request (called heard : List Operation) :
    ∃ before mutex rest,
      (CallbackCall.publishTick [true]).locks called heard =
        .acquire .dataMutex :: before ++ .acquire mutex :: rest ∧
      Light before ∧ (mutex = .dataMutex ∨ mutex = .orderMutex) := by
  have prefixed : ∀ tail : List (LockStep Mutex), ∃ before mutex rest,
      heard.flatMap (Operation.locksCalling called) ++
          (changeOrderCalling called ++ tail) =
        before ++ .acquire mutex :: rest ∧
      Light before ∧ (mutex = .dataMutex ∨ mutex = .orderMutex) := by
    intro tail
    induction heard with
    | nil =>
        exact ⟨[], .orderMutex,
          called.flatMap Operation.locks ++ .release .orderMutex :: tail,
          by simp [changeOrderCalling, locked], light_nil, .inr rfl⟩
    | cons operation others induction =>
        rw [List.flatMap_cons, List.append_assoc]
        rcases operation.locks_cases called with
          ⟨_, data⟩ | ⟨_, callees, _, order, _⟩ | ⟨operationLight, same⟩
        · rw [data]
          exact ⟨[], .dataMutex, _, rfl, light_nil, .inl rfl⟩
        · rw [order]
          exact ⟨[], .orderMutex, _, rfl, light_nil, .inr rfl⟩
        · obtain ⟨before, mutex, rest, split, light, low⟩ := induction
          refine ⟨operation.locks ++ before, mutex, rest, ?_,
            operationLight.append light, low⟩
          rw [same, split, List.append_assoc]
  obtain ⟨before, mutex, rest, split, light, low⟩ :=
    prefixed (Operation.submitOrder.locks ++ [.release .dataMutex])
  refine ⟨before, mutex, rest, ?_, light, low⟩
  rw [List.cons_append, ← split]
  simp [CallbackCall.locks, onTickCalling, locked]

/-- A callback that uses `orderMutex` waits for itself; one that uses
`dataMutex` waits for the market thread while that waits for it or for
itself. -/
theorem callback_blocks (heard : List Operation)
    (uses : ∃ operation ∈ called, Uses .orderMutex operation.locks ∨
      Uses .dataMutex operation.locks) :
    ∃ state, (callbackMachine called heard).Reachable state ∧
      ¬ DeadlockFree state := by
  obtain ⟨before, operation, after, rfl, usesLow, noneBefore⟩ :=
    exists_first (fun operation : Operation => Uses .orderMutex operation.locks ∨
      Uses .dataMutex operation.locks) uses
  have light : Light (before.flatMap Operation.locks) :=
    light_flatMap fun other member =>
      other.light_of_uses_neither (fun order => noneBefore other member (.inl order))
        fun data => noneBefore other member (.inr data)
  have below : Below 2 {Mutex.orderMutex} := by
    rintro mutex rfl
    decide
  have steady := light.steady _ below
  rcases usesLow with usesOrder | usesData
  · obtain ⟨callbacks, starts⟩ := Operation.starts_of_uses_order usesOrder
    have program : (CallbackCall.operation (.cancelOrder [])).locks
        (before ++ operation :: after) heard =
          .acquire .orderMutex :: before.flatMap Operation.locks ++
            (.acquire .orderMutex :: (callbacks.flatMap RiskOperation.locks ++
              .release .orderMutex :: (after.flatMap Operation.locks ++
                [.release .orderMutex]))) := by
      simp [CallbackCall.locks, Operation.locksCalling, changeOrderCalling,
        locked, starts, orderChange]
    obtain ⟨state, reached, waits, held, _⟩ :=
      reaches_inside (.client 0) rfl Library.Machine.Reachable.init rfl
        rfl program steady unclaimed_init (held_init _)
    exact ⟨state, reached, not_deadlockFree_of_self_request waits held⟩
  · have marketBelow : Below 2 {Mutex.dataMutex} := by
      rintro mutex rfl
      decide
    obtain ⟨marketBefore, mutex, marketRest, marketProgram, marketLight, low⟩ :=
      exists_low_request (before ++ operation :: after) heard
    obtain ⟨middle, middleReached, marketWaits, marketHeld, marketOthers⟩ :=
      reaches_inside .market rfl Library.Machine.Reachable.init rfl rfl
        marketProgram (marketLight.steady _ marketBelow) unclaimed_init
        (held_init _)
    rcases low with rfl | rfl
    · exact ⟨middle, middleReached,
        not_deadlockFree_of_self_request marketWaits marketHeld⟩
    have heldByMarket : ∀ key other, middle.owner key = some other →
        other = .market ∧ key = .dataMutex := by
      intro key other owns
      have member : key ∈ middle.held other := owns
      by_cases market : other = .market
      · subst market
        rw [marketHeld] at member
        exact ⟨rfl, member⟩
      · rw [(marketOthers other market).2, held_init] at member
        exact member.elim
    have free : middle.owner .orderMutex = none := by
      refine owner_eq_none fun thread member => ?_
      cases (heldByMarket _ thread member).2
    have clientNothing : middle.held (.client 0) = ∅ := by
      rw [(marketOthers _ (by decide)).2]
      exact held_init _
    obtain ⟨afterClient, clientProgram⟩ : ∃ rest,
        (CallbackCall.operation (.cancelOrder [])).locks
            (before ++ operation :: after) heard =
          .acquire .orderMutex :: before.flatMap Operation.locks ++
            (.acquire .dataMutex :: rest) := by
      refine ⟨.release .dataMutex :: (after.flatMap Operation.locks ++
        [.release .orderMutex]), ?_⟩
      simp [CallbackCall.locks, Operation.locksCalling, changeOrderCalling,
        locked, guarded, (Operation.starts_of_uses_data [] usesData).1]
    obtain ⟨state, reached, clientWaits, clientHeld, others⟩ :=
      reaches_inside (.client 0) rfl middleReached
        ((marketOthers _ (by decide)).1) free clientProgram steady
        (fun key other _ owns member => by
          have same := (heldByMarket key other owns).2
          subst same
          cases light.rank _ (.inl member)) clientNothing
    obtain ⟨sameProgram, sameHeld⟩ := others .market (by decide)
    have marketOwns : state.owner .dataMutex = some .market := by
      have member : Mutex.dataMutex ∈ state.held .market := by
        rw [sameHeld, marketHeld]
        rfl
      exact member
    have clientOwns : state.owner .orderMutex = some (.client 0) := by
      have member : Mutex.orderMutex ∈ state.held (.client 0) := by
        rw [clientHeld]
        rfl
      exact member
    refine ⟨state, reached, fun deadlockFree => deadlockFree.2 .market
      (.tail (.single ⟨.orderMutex, ⟨marketRest, ?_⟩, clientOwns⟩)
        ⟨.dataMutex, ⟨afterClient, clientWaits⟩, marketOwns⟩)⟩
    rw [sameProgram]
    exact marketWaits

end Necessary

/-- The threads of a program never deadlock exactly if its callbacks and
listeners keep to what they are allowed. -/
theorem deadlockFree_iff_callbacksAllowed (called heard : List Operation) :
    (∀ state, (callbackMachine called heard).Reachable state →
        DeadlockFree state) ↔
      CallbacksAllowed called heard := by
  constructor
  · intro free
    have callbacks : ∀ operation ∈ called,
        ¬ (Uses .orderMutex operation.locks ∨
          Uses .dataMutex operation.locks) := by
      intro operation member uses
      obtain ⟨state, reached, blocked⟩ :=
        callback_blocks heard ⟨operation, member, uses⟩
      exact blocked (free state reached)
    have light : CalleesLight called := fun operation member =>
      operation.light_of_uses_neither
        (fun order => callbacks operation member (.inl order))
        fun data => callbacks operation member (.inr data)
    refine ⟨fun operation member order => callbacks operation member (.inl order),
      fun operation member data => callbacks operation member (.inr data), ?_⟩
    intro operation member uses
    obtain ⟨state, reached, blocked⟩ :=
      listener_blocks light ⟨operation, member, uses⟩
    exact blocked (free state reached)
  · intro allowed state reached
    exact LockState.deadlock_free allowed.ordered_locks reached

example : CallbacksAllowed [.risk .updatePosition, .submitOrder, .getTrade]
    [.placeOrder [], .getOrderHistory] :=
  ⟨by decide, by decide, by decide⟩

example : ¬ CallbacksAllowed [.getLatestTick] [] := fun allowed =>
  allowed.data .getLatestTick (by decide) (by decide)

end TradingBot
