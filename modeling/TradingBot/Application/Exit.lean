import TradingBot.Application.Orderly

namespace TradingBot

open DemoStrategyListener

/-! What the program leaves when `main` returns. -/

namespace Bot

/-- Executed in full, with one trade. -/
structure Settled (bot : Bot) (order : Order) : Prop where
  status : order.status = .filled
  filledQuantity : order.filledQuantity = order.quantity
  trade : ∃ trade, bot.system.orderManager.tradesOf order.orderId = [trade] ∧
    bot.SettlesAt order trade

/-- Still in the queue. -/
structure Abandoned (bot : Bot) (order : Order) : Prop where
  status : order.status = .pending
  queued : ∃ request ∈ bot.system.executionQueue,
    request.orderId = order.orderId
  untraded : bot.system.orderManager.tradesOf order.orderId = []

/-- The order that a signal has become. -/
structure Became (signal : Signal) (position : Nat) (order : Order) : Prop where
  orderId : order.orderId = orderIdAt position
  symbol : order.symbol = signal.order.symbol
  side : order.side = signal.order.side
  price : order.price = signal.order.price
  quantity : order.quantity = signal.order.quantity

/-- With both threads at rest every signal is an order that is settled or still
queued. -/
structure Rests (bot : Bot) : Prop where
  orders : ∀ (position : Nat) (signal : Signal),
    (signals bot.published)[position]? = some signal →
      ∃ order, bot.system.orderManager.orders[orderIdAt position]? = some order ∧
        Became signal position order ∧ (bot.Settled order ∨ bot.Abandoned order)
  only : ∀ (orderId : UInt64) (order : Order),
    bot.system.orderManager.orders[orderId]? = some order →
      ∃ position, position < (signals bot.published).length ∧
        orderId = orderIdAt position
  placed : bot.system.orderManager.totalOrdersPlaced.toNat =
    (signals bot.published).length
  executed : bot.system.orderManager.totalTradesExecuted.toNat =
    bot.system.orderManager.trades.length
  tally : bot.system.orderManager.trades.length +
    bot.system.executionQueue.length = (signals bot.published).length

theorem unexecuted_waiting {system : System} (waiting : system.loop = .waiting) :
    system.unexecuted = system.executionQueue := by
  simp [System.unexecuted, waiting, LoopStage.unexecuted]

theorem executedRequests_waiting {system : System}
    (waiting : system.loop = .waiting) :
    system.executedRequests = system.executed := by
  simp [System.executedRequests, waiting, LoopStage.executing]

theorem settledRequests_waiting {system : System}
    (waiting : system.loop = .waiting) :
    system.settledRequests = system.executed := by
  simp [System.settledRequests, waiting, LoopStage.settling]

section Resting

variable {bot : Bot} (reached : machine.Reachable bot)
  (idle : bot.feed = .idle) (waiting : bot.system.loop = .waiting)

include reached idle waiting

theorem resting_requests :
    (bot.system.executionQueue ++ bot.system.executed).Perm
      (requestsOf (signals bot.published)) := by
  have requests := ((Pipelined.of_reachable reached).staged_idle idle).requests
  rwa [List.nil_append, unexecuted_waiting waiting,
    executedRequests_waiting waiting] at requests

/-- A queued request is not an executed one. -/
theorem resting_distinct {queued executed : ExecutionRequest}
    (left : queued ∈ bot.system.executionQueue)
    (right : executed ∈ bot.system.executed) :
    executed.orderId ≠ queued.orderId := by
  have distinct := ((Pipelined.of_reachable reached).staged_idle idle).distinct
  rw [List.nil_append, unexecuted_waiting waiting,
    executedRequests_waiting waiting, List.map_append] at distinct
  intro same
  exact List.disjoint_of_nodup_append distinct
    (List.mem_map_of_mem left) (List.mem_map.mpr ⟨executed, right, same⟩)

theorem resting_stored {request : ExecutionRequest}
    (member : request ∈ bot.system.executionQueue ++ bot.system.executed) :
    ∃ order, bot.system.orderManager.orders[request.orderId]? = some order := by
  have staged := (Pipelined.of_reachable reached).staged_idle idle
  rcases List.mem_append.mp member with queued | executed
  · refine ⟨_, staged.pending request ?_⟩
    rw [List.nil_append, unexecuted_waiting waiting]
    exact queued
  · refine ⟨_, staged.filled request ?_⟩
    rw [executedRequests_waiting waiting]
    exact executed

/-- Every order of a resting bot is settled or abandoned. -/
theorem resting_order {request : ExecutionRequest} {order : Order}
    (member : request ∈ bot.system.executionQueue ++ bot.system.executed)
    (identified : order.orderId = request.orderId)
    (law : bot.OrderLaw request.orderId order) :
    bot.Settled order ∨ bot.Abandoned order := by
  rcases List.mem_append.mp member with queued | executed
  · have unexecuted : request ∈ bot.unexecuted := by
      rw [Bot.unexecuted, idle, unexecuted_waiting waiting]
      exact queued
    refine .inr ⟨law.pending ⟨request, unexecuted, rfl⟩,
      ⟨request, queued, identified.symm⟩, ?_⟩
    rw [identified]
    apply law.untraded
    rw [settledRequests_waiting waiting]
    intro settled
    obtain ⟨other, executed, same⟩ := settled
    exact resting_distinct reached idle waiting queued executed same
  · have filled := law.filled ⟨request, by
      rwa [executedRequests_waiting waiting], rfl⟩
    have traded := law.traded ⟨request, by
      rwa [settledRequests_waiting waiting], rfl⟩
    rw [← identified] at traded
    exact .inl ⟨filled.1, filled.2, traded⟩

theorem resting : bot.Rests := by
  have pipelined := Pipelined.of_reachable reached
  have staged := pipelined.staged_idle idle
  have requests := resting_requests reached idle waiting
  have handled : bot.feed.handled bot.published = bot.published := by
    rw [idle]
    rfl
  refine
    { orders := ?_
      only := ?_
      placed := by rw [totalOrdersPlaced_toNat reached, handled]
      executed := totalTradesExecuted_toNat reached
      tally := ?_ }
  · intro position signal found
    have requested : signal.request position ∈
        requestsOf (signals bot.published) :=
      mem_requestsOf.mpr ⟨position, signal, found, rfl⟩
    have member := requests.mem_iff.mpr requested
    obtain ⟨order, stored⟩ := resting_stored reached idle waiting member
    rw [← handled] at requested
    have stores := pipelined.stores requested stored
    refine ⟨order, stored, ⟨stores.orderId, stores.symbol, stores.side,
      stores.price, stores.quantity⟩, ?_⟩
    exact resting_order reached idle waiting member stores.orderId
      (pipelined.orderLaw requested stored)
  · intro orderId order stored
    obtain ⟨request, member, rfl⟩ := staged.known orderId order stored
    obtain ⟨position, signal, found, rfl⟩ := mem_requestsOf.mp member
    exact ⟨position, (List.getElem?_eq_some_iff.mp found).1, rfl⟩
  · have settled := length_settledRequests reached
    have total := requests.length_eq
    rw [settledRequests_waiting waiting] at settled
    simp only [requestsOf, List.length_append, List.length_map,
      List.length_zipIdx] at total
    omega

end Resting

end Bot

namespace Application

/-- Whenever `main` has returned, both threads have, and the bot rests. -/
structure ExitLaw (program : Application) : Prop where
  market : program.market = .returned
  execution : program.execution = .returned
  ticks : program.bot.published.length = program.simulator.tickCount
  bounded : program.simulator.tickCount ≤ MarketSimulator.maxTicks
  few : (signals program.bot.published).length ≤ maxTrades
  rests : program.bot.Rests

/-- What `main` returns from. -/
theorem Orderly.resting {program : Application} (orderly : program.Orderly)
    (returned : program.main = .returned) :
    Bot.machine.Reachable program.bot ∧ program.bot.feed = .idle ∧
      program.bot.system.loop = .waiting := by
  have finished : program.main.remaining = 0 := by
    rw [returned]
    rfl
  have market := orderly.marketReturned (by omega)
  have execution := orderly.executionJoined finished
  have feeds := orderly.feeds
  have executes := orderly.executes
  rw [market] at feeds
  rw [execution] at executes
  exact ⟨orderly.reachable (by simp [market]), feeds,
    executes.mpr (by simp)⟩

theorem main_returns {program : Application} (reached : machine.Reachable program)
    (returned : program.main = .returned) : program.ExitLaw := by
  have orderly := Orderly.of_reachable reached
  obtain ⟨wired, feeds, waiting⟩ := orderly.resting returned
  have finished : program.main.remaining = 0 := by
    rw [returned]
    rfl
  have market := orderly.marketReturned (by omega)
  have counted := orderly.counted
  rw [market] at counted
  exact
    { market
      execution := orderly.executionJoined finished
      ticks := counted
      bounded := (Nat.le_add_right _ _).trans orderly.bounded
      few := length_signals_le _
      rests := Bot.resting wired feeds waiting }

def roundAt (priceChange : Rat) : Round where
  draws :=
    { priceChange, bidVolume := 100, askVolume := 100,
      bidDepth := (100, 100), askDepth := (100, 100) }
  timestamp := default

def tickUp : List ApplicationAction :=
  [.testMarket, .publishTick (roundAt 1), .onTick, .placeOrder, .submitOrder,
    .notifyOne, .returnOnTick, .returnPublishTick, .publishOrderBook, .wakeUp]

def executeNext (request : ExecutionRequest) : List ApplicationAction :=
  [.advanceLoop, .takeRequest request, .getLatestTick, .simulateOrderExecution,
    .simulateTrade default, .recordLatency 10]

/-- One signal, whose order is executed, between `start` and `stop`. -/
def sessionOfOne : List ApplicationAction :=
  List.replicate 4 .main ++
    [.testMarket, .publishTick (roundAt 0), .onTick, .returnPublishTick,
      .publishOrderBook, .wakeUp] ++
    tickUp ++
    executeNext
      (requestFor 1000 (signalOrder "AAPL" .buy (10099 / 100)) default) ++
    List.replicate 6 .main ++ [.testMarket] ++ List.replicate 3 .main ++
    [.advanceLoop, .main]

theorem main_returns_traded :
    ∃ program, machine.run init sessionOfOne = some program ∧
      program.bot.system.orderManager.trades.length = 1 ∧ program.ExitLaw := by
  have ends : (machine.run init sessionOfOne).any (fun program =>
      program.main = .returned ∧
        program.bot.system.orderManager.trades.length = 1) := by
    decide +kernel
  obtain ⟨program, ran, returned, traded⟩ : ∃ program,
      machine.run init sessionOfOne = some program ∧
        program.main = .returned ∧
        program.bot.system.orderManager.trades.length = 1 := by
    simpa [Option.any_eq_true] using ends
  exact ⟨program, ran, traded, main_returns ⟨sessionOfOne, ran⟩ returned⟩

end Application

end TradingBot
