import TradingBot.Application.Exit

namespace TradingBot

open DemoStrategyListener

/-! The ticks decide which orders the program leaves; the schedule decides only
which of them are executed, and at which quotes. -/

def Order.unexecuted (order : Order) : Order :=
  { order with status := .pending, filledQuantity := 0 }

/-- A trade without its quote and its time. -/
def Trade.unpriced (trade : Trade) : Trade :=
  { trade with price := 0, executedAt := default, totalCost := 0 }

/-- The trade of a request, but for its quote and its time. -/
def tradeFor (request : ExecutionRequest) : Trade :=
  (executedTrade request default default).unpriced

theorem unpriced_executedTrade (request : ExecutionRequest)
    (latestTick : MarketTick) (executedAt : Timestamp) :
    (executedTrade request latestTick executedAt).unpriced =
      tradeFor request := rfl

/-- The request of an order, if the ticks have led to it. -/
def requestOf (ticks : List MarketTick) (orderId : UInt64) :
    Option ExecutionRequest :=
  (requestsOf (signals ticks)).find? fun request =>
    decide (request.orderId = orderId)

namespace Bot

section Resting

variable {bot : Bot} (reached : machine.Reachable bot)
  (idle : bot.feed = .idle) (waiting : bot.system.loop = .waiting)

include reached idle waiting

theorem resting_pending {request : ExecutionRequest}
    (queued : request ∈ bot.system.executionQueue) :
    bot.system.orderManager.orders[request.orderId]? =
      some (orderOf request) := by
  have staged := (Pipelined.of_reachable reached).staged_idle idle
  apply staged.pending
  rwa [List.nil_append, unexecuted_waiting waiting]

theorem resting_filled {request : ExecutionRequest}
    (executed : request ∈ bot.system.executed) :
    bot.system.orderManager.orders[request.orderId]? =
      some (OrderManager.executedOrder (orderOf request) request.quantity) := by
  have staged := (Pipelined.of_reachable reached).staged_idle idle
  apply staged.filled
  rwa [executedRequests_waiting waiting]

omit waiting in
/-- What is stored under an id that no request has. -/
theorem resting_unknown {orderId : UInt64}
    (unknown : requestOf bot.published orderId = none) :
    bot.system.orderManager.orders[orderId]? = none := by
  have staged := (Pipelined.of_reachable reached).staged_idle idle
  cases stored : bot.system.orderManager.orders[orderId]? with
  | none => rfl
  | some order =>
      obtain ⟨request, member, identified⟩ := staged.known orderId order stored
      have absent := List.find?_eq_none.mp unknown request member
      simp [identified] at absent

theorem resting_request {orderId : UInt64} {request : ExecutionRequest}
    (found : requestOf bot.published orderId = some request) :
    request ∈ bot.system.executionQueue ++ bot.system.executed ∧
      request.orderId = orderId := by
  refine ⟨?_, by simpa using List.find?_some found⟩
  exact (resting_requests reached idle waiting).mem_iff.mpr
    (List.mem_of_find?_eq_some found)

theorem resting_unexecuted (orderId : UInt64) :
    (bot.system.orderManager.orders[orderId]?).map Order.unexecuted =
      (requestOf bot.published orderId).map orderOf := by
  cases found : requestOf bot.published orderId with
  | none => rw [resting_unknown reached idle found]; rfl
  | some request =>
      obtain ⟨member, rfl⟩ := resting_request reached idle waiting found
      rcases List.mem_append.mp member with queued | executed
      · rw [resting_pending reached idle waiting queued]
        rfl
      · rw [resting_filled reached idle waiting executed]
        rfl

theorem resting_drained (drained : bot.system.executionQueue = [])
    (orderId : UInt64) :
    bot.system.orderManager.orders[orderId]? =
      (requestOf bot.published orderId).map fun request =>
        OrderManager.executedOrder (orderOf request) request.quantity := by
  cases found : requestOf bot.published orderId with
  | none => exact resting_unknown reached idle found
  | some request =>
      obtain ⟨member, rfl⟩ := resting_request reached idle waiting found
      rw [drained, List.nil_append] at member
      exact resting_filled reached idle waiting member

/-- Which requests have traded, whatever the quotes were. -/
theorem resting_trades :
    bot.system.orderManager.trades.map Trade.unpriced =
      bot.system.executed.map tradeFor := by
  have settled := ((Pipelined.of_reachable reached).staged_idle idle).settled
  rw [settledRequests_waiting waiting] at settled
  generalize bot.system.executed = executed at settled
  generalize bot.system.orderManager.trades = trades at settled
  induction settled with
  | nil => rfl
  | cons settles _ induction =>
      obtain ⟨tick, executedAt, _, rfl⟩ := settles
      rw [List.map_cons, List.map_cons, induction, unpriced_executedTrade]

end Resting

end Bot

namespace Application

/-- Two complete runs whose markets have published the same ticks leave the
same orders, but for what has been executed of them; and where both have
drained their queues, the same order store and the same trades, but for quotes,
times and their order. -/
theorem schedules_agree {first second : Application}
    (firstReached : machine.Reachable first)
    (secondReached : machine.Reachable second)
    (firstReturned : first.main = .returned)
    (secondReturned : second.main = .returned)
    (published : first.bot.published = second.bot.published) :
    (∀ orderId : UInt64,
      (first.bot.system.orderManager.orders[orderId]?).map Order.unexecuted =
        (second.bot.system.orderManager.orders[orderId]?).map
          Order.unexecuted) ∧
      (first.bot.system.executionQueue = [] →
        second.bot.system.executionQueue = [] →
        first.bot.system.orderManager.orders =
            second.bot.system.orderManager.orders ∧
          (first.bot.system.orderManager.trades.map Trade.unpriced).Perm
            (second.bot.system.orderManager.trades.map Trade.unpriced)) := by
  obtain ⟨firstWired, firstIdle, firstWaiting⟩ :=
    (Orderly.of_reachable firstReached).resting firstReturned
  obtain ⟨secondWired, secondIdle, secondWaiting⟩ :=
    (Orderly.of_reachable secondReached).resting secondReturned
  refine ⟨fun orderId => ?_, fun firstDrained secondDrained => ⟨?_, ?_⟩⟩
  · rw [Bot.resting_unexecuted firstWired firstIdle firstWaiting,
      Bot.resting_unexecuted secondWired secondIdle secondWaiting, published]
  · apply Std.ExtTreeMap.ext_getElem?
    intro orderId
    rw [Bot.resting_drained firstWired firstIdle firstWaiting firstDrained,
      Bot.resting_drained secondWired secondIdle secondWaiting secondDrained,
      published]
  · have firstRequests :=
      Bot.resting_requests firstWired firstIdle firstWaiting
    have secondRequests :=
      Bot.resting_requests secondWired secondIdle secondWaiting
    rw [firstDrained, List.nil_append, published] at firstRequests
    rw [secondDrained, List.nil_append] at secondRequests
    rw [Bot.resting_trades firstWired firstIdle firstWaiting,
      Bot.resting_trades secondWired secondIdle secondWaiting]
    exact (firstRequests.trans secondRequests.symm).map tradeFor

/-- The same rounds, the order executed only after `stop` of the simulator. -/
private def sessionOfOneLate : List ApplicationAction :=
  List.replicate 4 .main ++
    [.testMarket, .publishTick (roundAt 0), .onTick, .returnPublishTick,
      .publishOrderBook, .wakeUp] ++
    tickUp ++ List.replicate 6 .main ++ [.testMarket, .main] ++
    executeNext
      (requestFor 1000 (signalOrder "AAPL" .buy (10099 / 100)) default) ++
    List.replicate 2 .main ++ [.advanceLoop, .main]

theorem schedules_agree_late :
    ∃ first second, machine.run init sessionOfOne = some first ∧
      machine.run init sessionOfOneLate = some second ∧
      first.bot.system.orderManager.orders =
        second.bot.system.orderManager.orders ∧
      (first.bot.system.orderManager.trades.map Trade.unpriced).Perm
        (second.bot.system.orderManager.trades.map Trade.unpriced) := by
  have ends : ∀ actions ∈ [sessionOfOne, sessionOfOneLate],
      (machine.run init actions).any (fun program =>
        program.main = .returned ∧ program.bot.system.executionQueue = []) := by
    decide +kernel
  have ticks : (machine.run init sessionOfOne).map (fun program =>
        program.bot.published) =
      (machine.run init sessionOfOneLate).map fun program =>
        program.bot.published := by
    decide +kernel
  have complete : ∀ actions ∈ [sessionOfOne, sessionOfOneLate], ∃ program,
      machine.run init actions = some program ∧ program.main = .returned ∧
        program.bot.system.executionQueue = [] := by
    intro actions member
    simpa [Option.any_eq_true] using ends actions member
  obtain ⟨first, firstRan, firstReturned, firstDrained⟩ :=
    complete sessionOfOne (by simp)
  obtain ⟨second, secondRan, secondReturned, secondDrained⟩ :=
    complete sessionOfOneLate (by simp)
  rw [firstRan, secondRan] at ticks
  have agree := schedules_agree ⟨_, firstRan⟩ ⟨_, secondRan⟩ firstReturned
    secondReturned (Option.some.inj ticks)
  obtain ⟨orders, trades⟩ := agree.2 firstDrained secondDrained
  exact ⟨first, second, firstRan, secondRan, orders, trades⟩

end Application

end TradingBot
