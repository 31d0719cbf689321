import TradingBot.Locks
import TradingBot.Library.Race

namespace TradingBot

open Library

/-! The members that each operation reads and writes between its locks, and the
accesses of different threads that may collide.  An operation is given with the
accesses of its longest path; a branch that leaves some out skips them. -/

/-- The members that an `Operation` uses. `executionThread` is none of them:
only `start` and `stop` do. -/
inductive Location where
  | symbolDataMap
  | lastPrice
  | tradeCount
  | orderIdCounter
  | orders
  | totalOrdersPlaced
  | callbacks
  | trades
  | totalTradesExecuted
  | executionQueue
  | running
  | stats
  | limits
  | positions
  | totalRealizedPnL
  | maxDrawdownValue
  | totalBalance
  deriving DecidableEq

inductive Protection where
  | guardedBy (mutex : Mutex)
  | atomic
  | unguarded
  deriving DecidableEq

/-- The statics and members of the listener are only used inside
`publishTick`. -/
def Location.protection : Location → Protection
  | .symbolDataMap | .lastPrice | .tradeCount => .guardedBy .dataMutex
  | .orderIdCounter | .orders => .guardedBy .orderMutex
  | .trades => .guardedBy .tradeMutex
  | .executionQueue => .guardedBy .queueMutex
  | .stats => .guardedBy .statsMutex
  | .positions => .guardedBy .positionMutex
  | .totalRealizedPnL | .maxDrawdownValue => .guardedBy .pnlMutex
  | .totalOrdersPlaced | .totalTradesExecuted => .atomic
  | .running | .totalBalance => .atomic
  | .callbacks | .limits => .unguarded

abbrev Program := List (MemoryStep Mutex Location)

def reads (location : Location) : MemoryStep Mutex Location :=
  .access location .read

def writes (location : Location) : MemoryStep Mutex Location :=
  .access location .write

/-- A load of or an addition to a `std::atomic`. -/
def atomically (location : Location) : MemoryStep Mutex Location :=
  .access location .atomic

namespace RiskOperation

def readPositions : Program :=
  lockedScope .positionMutex [reads .positions]

def changePositions : Program :=
  lockedScope .positionMutex [reads .positions, writes .positions]

def readRealized : Program :=
  lockedScope .pnlMutex [reads .totalRealizedPnL]

def accesses : RiskOperation → Program
  | .setRiskLimits => [writes .limits]
  | .getRiskLimits => [reads .limits]
  | .updatePosition | .closePosition => changePositions
  | .getPosition | .getAllPositions => readPositions
  | .getRealizedPnL => readRealized
  | .getUnrealizedPnL => readPositions
  | .getTotalPnL => readRealized ++ readPositions
  | .getPortfolioSnapshot =>
      atomically .totalBalance :: atomically .totalBalance ::
        (readPositions ++ (readRealized ++ readPositions) ++ readRealized ++
          readPositions ++ readPositions ++ [atomically .totalTradesExecuted])
  | .getMaxDrawdown => lockedScope .pnlMutex [reads .maxDrawdownValue]
  | .getWinRate => lockedScope .tradeMutex [reads .trades]
  | .canOpenPosition withinLimit =>
      reads .limits ::
        if withinLimit then readPositions ++ [reads .limits] else []
  | .canPlaceOrder | .calculateRequiredCapital => [reads .limits]
  | .updateMarketPrice => changePositions

end RiskOperation

/-- `notifyOrderChanged`: the loop over `callbacks`, and what they call. -/
def notifyOrderChanged.accesses (called : List RiskOperation) : Program :=
  reads .callbacks ::
    called.flatMap fun operation =>
      operation.accesses ++ [reads .callbacks]

def changeOrder (called : List RiskOperation) : Program :=
  lockedScope .orderMutex
    (reads .orders :: writes .orders :: notifyOrderChanged.accesses called)

def Operation.accesses : Operation → Program
  | .subscribe | .unsubscribe =>
      lockedScope .dataMutex [reads .symbolDataMap, writes .symbolDataMap]
  | .getLatestTick | .getLatestOrderBook | .getTickHistory =>
      lockedScope .dataMutex [reads .symbolDataMap]
  | .calculateVolatility | .calculateMomentum | .calculateRSI =>
      lockedScope .dataMutex [reads .symbolDataMap]
  | .placeOrder callbacks =>
      lockedScope .orderMutex
        (reads .orderIdCounter :: writes .orderIdCounter :: writes .orders ::
          atomically .totalOrdersPlaced :: notifyOrderChanged.accesses callbacks)
  | .cancelOrder callbacks => changeOrder callbacks
  | .modifyOrder callbacks => changeOrder callbacks
  | .getOrder | .getActiveOrders => lockedScope .orderMutex [reads .orders]
  | .getOrderHistory | .getOrdersBySymbol =>
      lockedScope .orderMutex [reads .orders]
  | .registerOrderCallback => [writes .callbacks]
  | .simulateOrderExecution callbacks => changeOrder callbacks
  | .simulateTrade =>
      lockedScope .tradeMutex [writes .trades, atomically .totalTradesExecuted]
  | .getTotalOrdersPlaced => [atomically .totalOrdersPlaced]
  | .getTotalTradesExecuted => [atomically .totalTradesExecuted]
  | .getTradeHistory | .getTrade => lockedScope .tradeMutex [reads .trades]
  | .submitOrder => lockedScope .queueMutex [writes .executionQueue]
  | .getAverageLatency | .getExecutedOrdersCount =>
      lockedScope .statsMutex [reads .stats]
  | .getMaxLatency | .getMinLatency => lockedScope .statsMutex [reads .stats]
  | .risk operation => operation.accesses

def onTick.accesses (signal : Option (List RiskOperation)) : Program :=
  reads .lastPrice :: reads .tradeCount ::
    (match signal with
    | none => []
    | some callbacks =>
        (Operation.placeOrder callbacks).accesses ++
          Operation.submitOrder.accesses ++ [writes .tradeCount]) ++
    [writes .lastPrice]

def publishTick.accesses (signals : List (Option (List RiskOperation))) :
    Program :=
  lockedScope .dataMutex
    (reads .symbolDataMap :: writes .symbolDataMap ::
      signals.flatMap fun signal =>
        reads .symbolDataMap :: onTick.accesses signal)

def publishOrderBook.accesses : Program :=
  lockedScope .dataMutex [reads .symbolDataMap, writes .symbolDataMap]

def executeOrder.accesses (taken : Taken) : Program :=
  Operation.getLatestTick.accesses ++
    (match taken with
    | .empty => []
    | .filled callbacks =>
        (Operation.simulateOrderExecution callbacks).accesses ++
          Operation.simulateTrade.accesses) ++
    lockedScope .statsMutex [reads .stats, writes .stats]

/-- The predicate of `queueCV.wait`. -/
def waitPredicate : Program :=
  [reads .executionQueue, atomically .running]

def wait.accesses : Program :=
  [.lock (.release .queueMutex), .lock .block, .lock (.acquire .queueMutex)] ++
    waitPredicate

def executionPass.accesses (waits : Nat) (taken : Option Taken) : Program :=
  atomically .running ::
    lockedScope .queueMutex
      (waitPredicate ++ (List.replicate waits wait.accesses).flatten ++
        [atomically .running, reads .executionQueue, writes .executionQueue]) ++
    taken.elim [] executeOrder.accesses

namespace ThreadCall

def accesses : ThreadCall → Program
  | .publishTick signals => publishTick.accesses signals
  | .publishOrderBook => publishOrderBook.accesses
  | .executionPass waits taken => executionPass.accesses waits taken
  | .operation performed => performed.accesses

end ThreadCall

section Erase

@[simp] theorem erase_reads (location : Location) (rest : Program) :
    erase (reads location :: rest) = erase rest := rfl

@[simp] theorem erase_writes (location : Location) (rest : Program) :
    erase (writes location :: rest) = erase rest := rfl

@[simp] theorem erase_atomically (location : Location) (rest : Program) :
    erase (atomically location :: rest) = erase rest := rfl

theorem RiskOperation.erase_accesses (operation : RiskOperation) :
    erase operation.accesses = operation.locks := by
  cases operation with
  | canOpenPosition withinLimit =>
      cases withinLimit <;> rfl
  | _ => rfl

theorem erase_notifyOrderChanged (called : List RiskOperation) :
    erase (notifyOrderChanged.accesses called) =
      called.flatMap RiskOperation.locks := by
  rw [notifyOrderChanged.accesses, erase_reads, erase_flatMap]
  congr 1
  funext operation
  simp [operation.erase_accesses]

theorem erase_changeOrder (called : List RiskOperation) :
    erase (changeOrder called) = orderChange called := by
  simp [changeOrder, orderChange, erase_notifyOrderChanged]

theorem Operation.erase_accesses (operation : Operation) :
    erase operation.accesses = operation.locks := by
  cases operation with
  | placeOrder callbacks =>
      simp [accesses, locks, orderChange, erase_notifyOrderChanged]
  | cancelOrder callbacks | modifyOrder callbacks
  | simulateOrderExecution callbacks => exact erase_changeOrder callbacks
  | risk operation => exact operation.erase_accesses
  | _ => rfl

theorem erase_onTick (signal : Option (List RiskOperation)) :
    erase (onTick.accesses signal) = onTick signal := by
  cases signal with
  | none => rfl
  | some callbacks =>
      simp [onTick.accesses, onTick, Operation.erase_accesses]

theorem erase_executeOrder (taken : Taken) :
    erase (executeOrder.accesses taken) = executeOrder taken := by
  cases taken with
  | empty => rfl
  | filled callbacks =>
      simp [executeOrder.accesses, executeOrder, Operation.erase_accesses,
        guarded]

theorem erase_waits (waits : Nat) :
    erase (List.replicate waits wait.accesses).flatten =
      (List.replicate waits wait).flatten := by
  induction waits with
  | zero => rfl
  | succ waits induction =>
      rw [List.replicate_succ, List.flatten_cons, erase_append, induction,
        List.replicate_succ, List.flatten_cons]
      rfl

/-- Between its accesses each call locks as it was seen to. -/
theorem ThreadCall.erase_accesses (call : ThreadCall) :
    erase call.accesses = call.locks := by
  cases call with
  | publishTick signals =>
      simp [accesses, locks, publishTick.accesses, TradingBot.publishTick,
        erase_flatMap, erase_onTick]
  | publishOrderBook => rfl
  | executionPass waits taken =>
      cases taken <;>
        simp [accesses, locks, executionPass.accesses, TradingBot.executionPass,
          waitPredicate, erase_waits, erase_executeOrder]
  | operation performed => exact performed.erase_accesses

end Erase

section Protected

/-- The call uses the unguarded members outside every lock. -/
def ThreadCall.unlocked : ThreadCall → Bool
  | .operation .registerOrderCallback => true
  | .operation (.risk _) => true
  | _ => false

/-- What protects an access; an unguarded member is otherwise only used by
callbacks, under `orderMutex`. -/
def Protected (unlocked : Bool) (location : Location) (kind : AccessKind)
    (held : Set Mutex) : Prop :=
  match location.protection with
  | .guardedBy mutex => mutex ∈ held
  | .atomic => kind = .atomic
  | .unguarded => unlocked = true ∨ .orderMutex ∈ held

variable {unlocked : Bool} {held : Set Mutex}

theorem Below.fresh {mutex : Mutex} (below : Below mutex.rank held) :
    mutex ∉ held := fun member => (below mutex member).false

theorem covered_scope {mutex : Mutex} (below : Below mutex.rank held)
    {body : Program}
    (inside : ∀ inner, Below (mutex.rank + 1) inner → mutex ∈ inner →
      held ⊆ inner → Covered (Protected unlocked) inner body) :
    Covered (Protected unlocked) held (lockedScope mutex body) :=
  Covered.lockedScope below.fresh
    (inside _ below.insert (Set.mem_insert _ _) (Set.subset_insert _ _))

/-- Accesses of members that are all guarded by one held mutex. -/
theorem covered_guarded {mutex : Mutex} {body : Program}
    (member : mutex ∈ held)
    (own : ∀ step ∈ body, ∃ location kind,
      step = .access location kind ∧ location.protection = .guardedBy mutex) :
    Covered (Protected unlocked) held body := by
  induction body with
  | nil => exact covered_nil
  | cons step rest induction =>
      obtain ⟨location, kind, rfl, guards⟩ := own step List.mem_cons_self
      refine Covered.cons ?_ (induction fun other otherMember =>
        own other (List.mem_cons_of_mem _ otherMember))
      simp only [Protected, guards]
      exact member

theorem covered_guardedScope {mutex : Mutex} {body : Program}
    (below : Below mutex.rank held)
    (own : ∀ step ∈ body, ∃ location kind,
      step = .access location kind ∧ location.protection = .guardedBy mutex) :
    Covered (Protected unlocked) held (lockedScope mutex body) :=
  covered_scope below fun _ _ member _ => covered_guarded member own

theorem covered_atomically {location : Location}
    (isAtomic : location.protection = .atomic) {rest : Program}
    (covered : Covered (Protected unlocked) held rest) :
    Covered (Protected unlocked) held (atomically location :: rest) :=
  Covered.cons (by simp [Protected, isAtomic]) covered

theorem covered_unguarded {location : Location} {kind : AccessKind}
    (exposed : location.protection = .unguarded)
    (excused : unlocked = true ∨ .orderMutex ∈ held) {rest : Program}
    (covered : Covered (Protected unlocked) held rest) :
    Covered (Protected unlocked) held (.access location kind :: rest) :=
  Covered.cons (by simpa [Protected, exposed] using excused) covered

theorem RiskOperation.covered_accesses (operation : RiskOperation)
    (below : Below 2 held)
    (excused : unlocked = true ∨ .orderMutex ∈ held) :
    Covered (Protected unlocked) held operation.accesses := by
  have read : Covered (Protected unlocked) held readPositions :=
    covered_guardedScope below (by simp [reads, Location.protection])
  have changed : Covered (Protected unlocked) held changePositions :=
    covered_guardedScope below (by simp [reads, writes, Location.protection])
  have realized : Covered (Protected unlocked) held readRealized :=
    covered_guardedScope below (by simp [reads, Location.protection])
  have limits : ∀ kind, ∀ {rest : Program},
      Covered (Protected unlocked) held rest →
        Covered (Protected unlocked) held (.access .limits kind :: rest) :=
    fun _ _ covered => covered_unguarded rfl excused covered
  cases operation with
  | setRiskLimits => exact limits .write covered_nil
  | getRiskLimits | canPlaceOrder | calculateRequiredCapital =>
      exact limits .read covered_nil
  | updatePosition | closePosition | updateMarketPrice => exact changed
  | getPosition | getAllPositions | getUnrealizedPnL => exact read
  | getRealizedPnL => exact realized
  | getTotalPnL => exact realized.append read
  | getPortfolioSnapshot =>
      exact covered_atomically rfl (covered_atomically rfl
        (((((read.append (realized.append read)).append realized).append
          read).append read).append (covered_atomically rfl covered_nil)))
  | getMaxDrawdown =>
      exact covered_guardedScope below (by simp [reads, Location.protection])
  | getWinRate =>
      exact covered_guardedScope below (by simp [reads, Location.protection])
  | canOpenPosition withinLimit =>
      refine limits .read ?_
      cases withinLimit with
      | false => exact covered_nil
      | true => exact read.append (limits .read covered_nil)

theorem covered_notifyOrderChanged (called : List RiskOperation)
    (below : Below 2 held) (locked : .orderMutex ∈ held) :
    Covered (Protected unlocked) held (notifyOrderChanged.accesses called) := by
  have excused : unlocked = true ∨ .orderMutex ∈ held := .inr locked
  refine covered_unguarded rfl excused (covered_flatMap fun operation _ => ?_)
  exact (operation.covered_accesses below excused).append
    (covered_unguarded rfl excused covered_nil)

theorem covered_orders {rest : Program} {location : Location}
    {kind : AccessKind} (guards : location.protection = .guardedBy .orderMutex)
    (locked : .orderMutex ∈ held)
    (covered : Covered (Protected unlocked) held rest) :
    Covered (Protected unlocked) held (.access location kind :: rest) :=
  Covered.cons (by simpa [Protected, guards] using locked) covered

theorem covered_changeOrder (called : List RiskOperation)
    (below : Below 1 held) :
    Covered (Protected unlocked) held (changeOrder called) := by
  have free : Below Mutex.orderMutex.rank held := below
  exact covered_scope free fun _ inner locked _ =>
    covered_orders rfl locked (covered_orders rfl locked
      (covered_notifyOrderChanged called inner locked))

theorem covered_placeOrder (callbacks : List RiskOperation)
    (below : Below 1 held) :
    Covered (Protected unlocked) held
      (Operation.placeOrder callbacks).accesses := by
  have free : Below Mutex.orderMutex.rank held := below
  exact covered_scope free fun _ inner locked _ =>
    covered_orders rfl locked (covered_orders rfl locked
      (covered_orders rfl locked (covered_atomically rfl
        (covered_notifyOrderChanged callbacks inner locked))))

theorem covered_submitOrder (below : Below 2 held) :
    Covered (Protected unlocked) held Operation.submitOrder.accesses :=
  covered_guardedScope below (by simp [writes, Location.protection])

theorem covered_simulateTrade (below : Below 2 held) :
    Covered (Protected unlocked) held Operation.simulateTrade.accesses := by
  have free : Below Mutex.tradeMutex.rank held := below
  exact covered_scope free fun _ _ member _ =>
    Covered.cons member (covered_atomically rfl covered_nil)

theorem Operation.covered_accesses (operation : Operation) :
    Covered (Protected (ThreadCall.operation operation).unlocked) ∅
      operation.accesses := by
  cases operation with
  | placeOrder callbacks => exact covered_placeOrder callbacks (below_empty _)
  | cancelOrder callbacks | modifyOrder callbacks
  | simulateOrderExecution callbacks =>
      exact covered_changeOrder callbacks (below_empty _)
  | registerOrderCallback => exact covered_unguarded rfl (.inl rfl) covered_nil
  | simulateTrade => exact covered_simulateTrade (below_empty _)
  | getTotalOrdersPlaced | getTotalTradesExecuted =>
      exact covered_atomically rfl covered_nil
  | submitOrder => exact covered_submitOrder (below_empty _)
  | risk operation => exact operation.covered_accesses (below_empty _) (.inl rfl)
  | _ =>
      exact covered_guardedScope (below_empty _)
        (by simp [reads, writes, Location.protection])

theorem covered_onTick (signal : Option (List RiskOperation))
    (below : Below 1 held) (locked : .dataMutex ∈ held) :
    Covered (Protected unlocked) held (onTick.accesses signal) := by
  have own : ∀ {location : Location} {kind : AccessKind} {rest : Program},
      location.protection = .guardedBy .dataMutex →
        Covered (Protected unlocked) held rest →
          Covered (Protected unlocked) held (.access location kind :: rest) :=
    fun guards covered =>
      Covered.cons (by simpa [Protected, guards] using locked) covered
  refine own rfl (own rfl (Covered.append ?_ (own rfl covered_nil)))
  cases signal with
  | none => exact covered_nil
  | some callbacks =>
      exact ((covered_placeOrder callbacks below).append
        (covered_submitOrder (below.mono (by decide)))).append
          (own rfl covered_nil)

theorem covered_waits (waits : Nat) :
    Covered (Protected unlocked) {.queueMutex}
      (List.replicate waits wait.accesses).flatten := by
  have waited : Covered (Protected unlocked) {.queueMutex} wait.accesses := by
    intro rest checked
    have back : insert Mutex.queueMutex ({.queueMutex} \ {.queueMutex}) =
        ({.queueMutex} : Set Mutex) := by
      simp
    show Checked _ (insert Mutex.queueMutex ({.queueMutex} \ {.queueMutex})) _
    rw [back]
    exact ⟨rfl, rfl, checked⟩
  induction waits with
  | zero => exact covered_nil
  | succ waits induction =>
      rw [List.replicate_succ, List.flatten_cons]
      exact waited.append induction

theorem covered_executeOrder (taken : Taken) :
    Covered (Protected unlocked) ∅ (executeOrder.accesses taken) := by
  have quoted : Covered (Protected unlocked) ∅
      Operation.getLatestTick.accesses :=
    covered_guardedScope (below_empty _) (by simp [reads, Location.protection])
  have recorded : Covered (Protected unlocked) ∅
      (lockedScope .statsMutex [reads .stats, writes .stats]) :=
    covered_guardedScope (below_empty _)
      (by simp [reads, writes, Location.protection])
  cases taken with
  | empty => exact (quoted.append covered_nil).append recorded
  | filled callbacks =>
      exact (quoted.append ((covered_changeOrder callbacks
        (below_empty _)).append (covered_simulateTrade (below_empty _)))).append
          recorded

theorem covered_executionPass (waits : Nat) (taken : Option Taken) :
    Covered (Protected unlocked) ∅ (executionPass.accesses waits taken) := by
  have free : Below Mutex.queueMutex.rank ∅ := below_empty _
  have polled : Covered (Protected unlocked) ∅ (lockedScope .queueMutex
      (waitPredicate ++ (List.replicate waits wait.accesses).flatten ++
        [atomically .running, reads .executionQueue,
          writes .executionQueue])) := by
    refine Covered.lockedScope free.fresh ?_
    rw [insert_empty_eq]
    refine (Covered.append ?_ (covered_waits waits)).append ?_
    · exact Covered.cons rfl (covered_atomically rfl covered_nil)
    · exact covered_atomically rfl (Covered.cons rfl (Covered.cons rfl covered_nil))
  refine covered_atomically rfl (polled.append ?_)
  cases taken with
  | none => exact covered_nil
  | some taken => exact covered_executeOrder taken

theorem ThreadCall.covered_accesses (call : ThreadCall) :
    Covered (Protected call.unlocked) ∅ call.accesses := by
  cases call with
  | publishTick signals =>
      have free : Below Mutex.dataMutex.rank ∅ := below_empty _
      exact covered_scope free fun _ inner locked _ =>
        Covered.cons locked (Covered.cons locked
          (covered_flatMap fun signal _ =>
            Covered.cons locked (covered_onTick signal inner locked)))
  | publishOrderBook =>
      exact covered_guardedScope (below_empty _)
        (by simp [reads, writes, Location.protection])
  | executionPass waits taken => exact covered_executionPass waits taken
  | operation performed => exact performed.covered_accesses

end Protected

abbrev MemoryThreads := MemoryState ThreadName Mutex Location ThreadCall

def memoryMachine : Machine MemoryThreads (MemoryAction ThreadName ThreadCall) :=
  MemoryState.machine ThreadCall.accesses ThreadCall.allowed

/-- Two calls use `callbacks`, or both use `limits`, one of them to write, and
not both as callbacks under `orderMutex`. -/
def RacyPair (call other : ThreadCall) : Prop :=
  ∃ location kind otherKind, location.protection = .unguarded ∧
    .access location kind ∈ call.accesses ∧
    .access location otherKind ∈ other.accesses ∧
    kind.Conflicts otherKind ∧ (call.unlocked = true ∨ other.unlocked = true)

theorem ThreadCall.ordered_accesses (call : ThreadCall) :
    Ordered Mutex.rank ∅ (erase call.accesses) :=
  call.erase_accesses ▸ call.ordered_locks

theorem checked_accesses (call : ThreadCall) :
    Checked (fun location kind held =>
        .access location kind ∈ call.accesses ∧
          Protected call.unlocked location kind held) ∅
      call.accesses :=
  call.covered_accesses.checked.and_of_mem fun _ _ member => member

def exposes : MemoryStep Mutex Location → Bool
  | .access location _ => decide (location.protection = .unguarded)
  | .lock _ => false

/-- A call that uses unguarded members outside every lock starts with that. -/
theorem ThreadCall.starts_unguarded {call : ThreadCall}
    (unlocked : call.unlocked = true) {location : Location} {kind : AccessKind}
    (exposed : location.protection = .unguarded)
    (accesses : .access location kind ∈ call.accesses) :
    ∃ rest, call.accesses = .access location kind :: rest := by
  have kept : .access location kind ∈ call.accesses.filter exposes :=
    List.mem_filter.mpr ⟨accesses, by simp [exposes, exposed]⟩
  cases call with
  | operation performed =>
      cases performed with
      | registerOrderCallback =>
          cases List.mem_singleton.mp accesses
          exact ⟨[], rfl⟩
      | risk operation =>
          cases operation with
          | setRiskLimits | getRiskLimits | canPlaceOrder
          | calculateRequiredCapital =>
              cases List.mem_singleton.mp accesses
              exact ⟨[], rfl⟩
          | canOpenPosition withinLimit =>
              cases withinLimit with
              | false =>
                  cases List.mem_singleton.mp accesses
                  exact ⟨[], rfl⟩
              | true =>
                  have twice : MemoryStep.access location kind ∈
                      [reads .limits, reads .limits] := kept
                  have same : MemoryStep.access location kind = reads .limits := by
                    simpa using twice
                  exact ⟨_, by rw [same]; rfl⟩
          | _ => exact absurd kept List.not_mem_nil
      | _ => simp [ThreadCall.unlocked] at unlocked
  | _ => simp [ThreadCall.unlocked] at unlocked

theorem MemoryThreads.sound {state : MemoryThreads}
    (reached : memoryMachine.Reachable state) :
    state.Sound Mutex.rank fun call location kind held =>
      .access location kind ∈ call.accesses ∧
        Protected call.unlocked location kind held :=
  MemoryState.sound_of_reachable ThreadCall.ordered_accesses checked_accesses
    reached

/-- Two threads can come to make conflicting accesses at the same time exactly
if their calls are a racy pair: every other member is protected in every
interleaving. -/
theorem race_iff {thread other : ThreadName} (distinct : thread ≠ other)
    {call otherCall : ThreadCall}
    (callAllowed : ThreadCall.allowed thread call = true)
    (otherAllowed : ThreadCall.allowed other otherCall = true) :
    (∃ state : MemoryThreads, memoryMachine.Reachable state ∧
        state.making thread = some call ∧
        state.making other = some otherCall ∧ state.Race thread other) ↔
      RacyPair call otherCall := by
  constructor
  · intro raced
    obtain ⟨state, reached, makes, otherMakes, location, kind, otherKind, here,
      there, conflicts⟩ := raced
    have sound := MemoryThreads.sound reached
    obtain ⟨member, guarded⟩ := sound.permitted_at makes here
    obtain ⟨otherMember, otherGuarded⟩ := sound.permitted_at otherMakes there
    unfold Protected at guarded otherGuarded
    cases protection : location.protection with
    | guardedBy mutex =>
        rw [protection] at guarded otherGuarded
        exact absurd (MemoryState.eq_of_held guarded otherGuarded) distinct
    | atomic =>
        rw [protection] at guarded otherGuarded
        subst guarded otherGuarded
        exact conflicts.elim
    | unguarded =>
        rw [protection] at guarded otherGuarded
        refine ⟨location, kind, otherKind, protection, member, otherMember,
          conflicts, ?_⟩
        rcases guarded with unlocked | locked
        · exact .inl unlocked
        · rcases otherGuarded with unlocked | otherLocked
          · exact .inr unlocked
          · exact absurd (MemoryState.eq_of_held locked otherLocked) distinct
  · intro racy
    obtain ⟨location, kind, otherKind, exposed, member, otherMember, conflicts,
      unlocked⟩ := racy
    rcases unlocked with unlocked | otherUnlocked
    · obtain ⟨rest, starts⟩ := ThreadCall.starts_unguarded unlocked exposed member
      obtain ⟨state, reached, otherMakes, makes, race⟩ :=
        MemoryState.race_reached ThreadCall.ordered_accesses distinct.symm
          otherAllowed callAllowed otherMember starts conflicts.symm
      exact ⟨state, reached, makes, otherMakes, race.symm⟩
    · obtain ⟨rest, starts⟩ :=
        ThreadCall.starts_unguarded otherUnlocked exposed otherMember
      exact MemoryState.race_reached ThreadCall.ordered_accesses distinct
        callAllowed otherAllowed member starts conflicts

/-- A callback registered while the market thread places an order. -/
theorem race_iff_registered_late :
    ∃ state : MemoryThreads, memoryMachine.Reachable state ∧
      state.making .market = some (.publishTick [some []]) ∧
      state.making (.client 0) = some (.operation .registerOrderCallback) ∧
      state.Race .market (.client 0) :=
  (race_iff (by decide) rfl rfl).mpr
    ⟨.callbacks, .read, .write, rfl, by
      simp [ThreadCall.accesses, publishTick.accesses, onTick.accesses,
        Operation.accesses, notifyOrderChanged.accesses, lockedScope, reads],
      by simp [ThreadCall.accesses, Operation.accesses, writes], trivial,
      .inr rfl⟩

end TradingBot
