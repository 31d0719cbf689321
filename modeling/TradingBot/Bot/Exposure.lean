import TradingBot.Bot.Pipeline
import TradingBot.RiskManager
import Mathlib.Data.List.Perm.Subperm
import Mathlib.Tactic.Ring

namespace TradingBot

open DemoStrategyListener

/-! The limits that `main` configures against what the wired system trades. -/

def mainLimits : RiskLimits where
  maxPositionSize := 10000
  maxLossPerTrade := 500
  maxDailyLoss := 2000
  maxLeverage := 2
  maxOrderSize := 1000
  maxExposure := 50000

def OrderManager.netTraded (manager : OrderManager) : Int :=
  (manager.trades.map fun trade =>
    trade.side.sign * (trade.quantity.toNat : Int)).sum

def onSide (side : OrderSide) (requests : List ExecutionRequest) : Nat :=
  requests.countP fun request => request.side = side

def offSide (side : OrderSide) (requests : List ExecutionRequest) : Nat :=
  requests.countP fun request => request.side ≠ side

/-- The largest position that some of the requests leave, a request of the
given side being the last one executed. -/
def peakPosition (side : OrderSide) (requests : List ExecutionRequest) : Nat :=
  100 * max (onSide side requests) (offSide side requests - 1)

/-- Whatever is executed last at a tick of the stream, after whichever of the
requests made by then, stays within the exposure limit at its price. -/
def ExposureFits (ticks : List MarketTick) : Prop :=
  ∀ (earlier : List MarketTick) (tick : MarketTick),
    earlier ++ [tick] <+: ticks →
      ∀ request ∈ requestsOf (signals (earlier ++ [tick])),
        peakPosition request.side (requestsOf (signals (earlier ++ [tick]))) *
          executionPrice request tick ≤ mainLimits.maxExposure

theorem onSide_add_offSide (side : OrderSide)
    (requests : List ExecutionRequest) :
    onSide side requests + offSide side requests = requests.length := by
  rw [onSide, offSide,
    List.length_eq_countP_add_countP fun request => request.side = side]
  simp

theorem net_of_hundreds (side : OrderSide) {requests : List ExecutionRequest}
    (hundreds : ∀ request ∈ requests, request.quantity = 100) :
    (requests.map fun request =>
        request.side.sign * (request.quantity.toNat : Int)).sum =
      side.sign * 100 * (onSide side requests - offSide side requests) := by
  induction requests with
  | nil => simp [onSide, offSide]
  | cons request rest induction =>
      have tail := induction fun other member =>
        hundreds other (List.mem_cons_of_mem _ member)
      rw [List.map_cons, List.sum_cons, tail,
        hundreds request List.mem_cons_self]
      simp only [onSide, offSide, List.countP_cons]
      rcases eq_or_ne request.side side with same | differ
      · simp only [same, decide_true, if_true, ne_eq, not_true, decide_false]
        push_cast
        simp
        ring
      · rw [OrderSide.sign_of_ne differ]
        simp only [differ, decide_false, ne_eq, not_false_eq_true, decide_true,
          if_true]
        push_cast
        simp
        ring

theorem natAbs_le_peak (side : OrderSide)
    {settled requests : List ExecutionRequest}
    (among : settled.Subperm requests) (last : 0 < onSide side settled) :
    (side.sign * 100 *
      ((onSide side settled : Int) - offSide side settled)).natAbs ≤
      peakPosition side requests := by
  have same : onSide side settled ≤ onSide side requests := among.countP_le _
  have other : offSide side settled ≤ offSide side requests := among.countP_le _
  unfold peakPosition
  rcases side.sign_eq with sign | sign <;> rw [sign] <;> omega

namespace Bot

structure LimitsHold (bot : Bot) : Prop where
  orderSize : ∀ (orderId : UInt64) (order : Order),
    bot.system.orderManager.orders[orderId]? = some order →
      order.quantity ≤ mainLimits.maxOrderSize
  positionSize :
    (bot.system.orderManager.netTraded.natAbs : Rat) ≤
      mainLimits.maxPositionSize
  exposure : ∀ trade ∈ bot.system.orderManager.trades.getLast?,
    bot.system.orderManager.netTraded.natAbs * trade.price ≤
      mainLimits.maxExposure

/-- A request that trades at a tick comes, like everything settled before it,
from the stream up to that tick. -/
def UpTo (ticks : List MarketTick) (settled : List ExecutionRequest)
    (request : ExecutionRequest) (tick : MarketTick) : Prop :=
  ∃ earlier, earlier ++ [tick] <+: ticks ∧
    request ∈ requestsOf (signals (earlier ++ [tick])) ∧
    ∀ other ∈ settled, other ∈ requestsOf (signals (earlier ++ [tick]))

structure Traced (bot : Bot) : Prop where
  quoted : ∀ quote ∈ bot.system.loop.quote?,
    UpTo bot.published bot.system.settledRequests quote.1 quote.2
  last : ∀ trade ∈ bot.system.orderManager.trades.getLast?,
    ∃ request ∈ bot.system.settledRequests, ∃ tick executedAt,
      trade = executedTrade request tick executedAt ∧
        UpTo bot.published bot.system.settledRequests request tick

theorem UpTo.mono {ticks published : List MarketTick}
    {settled : List ExecutionRequest} {request : ExecutionRequest}
    {tick : MarketTick} (upTo : UpTo ticks settled request tick)
    (extended : ticks <+: published) : UpTo published settled request tick := by
  obtain ⟨earlier, initial, member, others⟩ := upTo
  exact ⟨earlier, initial.trans extended, member, others⟩

theorem Traced.transport {bot next : Bot} (traced : bot.Traced)
    (published : bot.published <+: next.published)
    (settled : next.system.settledRequests = bot.system.settledRequests)
    (trades : next.system.orderManager.trades = bot.system.orderManager.trades)
    (quotes : ∀ quote ∈ next.system.loop.quote?,
      quote ∈ bot.system.loop.quote?) : next.Traced where
  quoted quote current := by
    rw [settled]
    exact (traced.quoted quote (quotes quote current)).mono published
  last trade appended := by
    rw [trades] at appended
    rw [settled]
    obtain ⟨request, member, tick, executedAt, equal, upTo⟩ :=
      traced.last trade appended
    exact ⟨request, member, tick, executedAt, equal, upTo.mono published⟩

theorem Traced.init : Bot.init.Traced where
  quoted := by simp [Bot.init, System.init, LoopStage.quote?]
  last := by simp [Bot.init, System.init]

/-- At a quote, everything placed comes from the stream so far. -/
theorem Traced.getLatestTick {bot next : Bot} (pipelined : bot.Pipelined)
    (traced : bot.Traced) (stepped : bot.getLatestTick = some next) :
    next.Traced := by
  obtain ⟨idle, system, moved, rfl⟩ := getLatestTick_eq_some.mp stepped
  obtain ⟨request, stage, rfl⟩ := System.getLatestTick_eq_some.mp moved
  have staged := pipelined.staged_idle idle
  have member := staged.inFlight_placed (by rw [stage, LoopStage.request?])
  have settled : System.settledRequests { bot.system with
      loop := .quoted request
        (bot.system.marketData.getLatestTick request.symbol) } =
      bot.system.settledRequests := by
    simp [System.settledRequests, stage, LoopStage.settling]
  have published : bot.published ≠ [] := by
    intro empty
    rw [empty] at member
    simp at member
  refine ⟨?_, ?_⟩
  · intro quote current
    cases current
    rw [settled, (staged.terms member).1,
      pipelined.latest _ (List.getLast?_eq_some_getLast published)]
    refine ⟨bot.published.dropLast, ?_, ?_, ?_⟩
    · rw [List.dropLast_concat_getLast]
    · rw [List.dropLast_concat_getLast]
      exact member
    · rw [List.dropLast_concat_getLast]
      exact fun other earlier => staged.settled_placed earlier
  · rw [settled]
    exact traced.last

theorem Traced.simulateTrade {bot : Bot} {system : System}
    {executedAt : Timestamp} (traced : bot.Traced)
    (moved : bot.system.simulateTrade executedAt = some system) :
    Traced { bot with system } := by
  obtain ⟨request, latestTick, stage, rfl⟩ :=
    System.simulateTrade_eq_some.mp moved
  obtain ⟨earlier, initial, member, others⟩ :=
    traced.quoted (request, latestTick) (by simp [stage, LoopStage.quote?])
  have upTo : UpTo bot.published (bot.system.executed ++ [request]) request
      latestTick := by
    refine ⟨earlier, initial, member, fun other settled => ?_⟩
    rcases List.mem_append.mp settled with settled | settled
    · exact others other (List.mem_append_left _ settled)
    · rw [List.mem_singleton.mp settled]
      exact member
  refine ⟨?_, ?_⟩
  · intro quote current
    cases current
    exact upTo
  · intro trade appended
    rw [OrderManager.simulateTrade_trades, List.getLast?_concat] at appended
    cases appended
    exact ⟨request, List.mem_append_right _ List.mem_cons_self, latestTick,
      executedAt, rfl, upTo⟩

theorem Traced.step {bot next : Bot} {action : BotAction}
    (pipelined : bot.Pipelined) (traced : bot.Traced)
    (stepped : bot.step action = some next) : next.Traced := by
  have same := List.prefix_refl bot.published
  cases action with
  | publishTick tick =>
      obtain ⟨_, _, rfl⟩ := publishTick_eq_some.mp stepped
      exact traced.transport (List.prefix_append _ _) rfl rfl
        fun _ current => current
  | onTick =>
      obtain ⟨_, _, _, _, ⟨_, _, rfl⟩ | ⟨_, rfl⟩⟩ := onTick_eq_some.mp stepped
      · exact traced.transport same rfl rfl fun _ current => current
      · exact traced.transport same rfl rfl fun _ current => current
  | placeOrder =>
      obtain ⟨_, _, _, _, rfl⟩ := placeOrder_eq_some.mp stepped
      exact traced.transport same rfl rfl fun _ current => current
  | submitOrder =>
      obtain ⟨_, _, _, _, rfl⟩ := submitOrder_eq_some.mp stepped
      exact traced.transport same rfl rfl fun _ current => current
  | returnOnTick =>
      obtain ⟨_, _, _, rfl⟩ := returnOnTick_eq_some.mp stepped
      exact traced.transport same rfl rfl fun _ current => current
  | returnPublishTick =>
      obtain ⟨_, _, rfl⟩ := returnPublishTick_eq_some.mp stepped
      exact traced.transport same rfl rfl fun _ current => current
  | publishOrderBook book =>
      obtain ⟨_, rfl⟩ := publishOrderBook_eq_some.mp stepped
      exact traced.transport same rfl rfl fun _ current => current
  | takeRequest request =>
      obtain ⟨system, moved, rfl⟩ := loopStep_eq_some.mp stepped
      obtain ⟨stage, _, rfl⟩ := System.takeRequest_eq_some.mp moved
      refine traced.transport same ?_ rfl (by simp [LoopStage.quote?])
      simp [System.settledRequests, stage, LoopStage.settling]
  | getLatestTick => exact traced.getLatestTick pipelined stepped
  | simulateOrderExecution =>
      obtain ⟨system, moved, rfl⟩ := loopStep_eq_some.mp stepped
      obtain ⟨_, _, stage, _, rfl⟩ :=
        System.simulateOrderExecution_eq_some.mp moved
      refine traced.transport same ?_ (by simp) ?_
      · simp [System.settledRequests, stage, LoopStage.settling]
      · simp [stage, LoopStage.quote?]
  | simulateTrade executedAt =>
      obtain ⟨system, moved, rfl⟩ := loopStep_eq_some.mp stepped
      exact traced.simulateTrade moved
  | recordLatency latency =>
      obtain ⟨system, moved, rfl⟩ := loopStep_eq_some.mp stepped
      obtain ⟨request, _, stage, rfl⟩ := System.recordLatency_eq_some.mp moved
      rcases stage with stage | ⟨stage, zero⟩
      · refine traced.transport same ?_ rfl ?_
        · simp [System.settledRequests, System.finishRequest, stage,
            LoopStage.settling]
        · simp [System.finishRequest, LoopStage.quote?]
      · exact absurd zero (pipelined.staged.inFlight_quantity
          (by rw [stage, LoopStage.request?]))

theorem Traced.of_reachable {bot : Bot} (reached : machine.Reachable bot) :
    bot.Traced :=
  (Library.Machine.reachable_preserves
    (fun bot => bot.Pipelined ∧ bot.Traced) ⟨pipelined_init, Traced.init⟩
    reached fun _ _ _ holds stepped =>
      ⟨holds.1.step stepped, holds.2.step holds.1 stepped⟩).2

theorem Pipelined.netTraded {bot : Bot} (pipelined : bot.Pipelined)
    (side : OrderSide) :
    bot.system.orderManager.netTraded =
      side.sign * 100 * (onSide side bot.system.settledRequests -
        offSide side bot.system.settledRequests) := by
  rw [← net_of_hundreds side fun request member =>
    (pipelined.staged.terms (pipelined.staged.settled_placed member)).2]
  unfold OrderManager.netTraded
  have settled := pipelined.staged.settled
  generalize bot.system.settledRequests = requests at settled ⊢
  generalize bot.system.orderManager.trades = trades at settled ⊢
  induction settled with
  | nil => rfl
  | cons settles _ induction =>
      obtain ⟨tick, executedAt, _, rfl⟩ := settles
      rw [List.map_cons, List.map_cons, List.sum_cons, List.sum_cons, induction]
      rfl

/-- The orders are within `maxOrderSize`, whatever the ticks. -/
theorem Pipelined.orderSize {bot : Bot} (pipelined : bot.Pipelined)
    {orderId : UInt64} {order : Order}
    (stored : bot.system.orderManager.orders[orderId]? = some order) :
    order.quantity ≤ mainLimits.maxOrderSize := by
  obtain ⟨request, member, rfl⟩ := pipelined.staged.known orderId order stored
  rw [(pipelined.stores member stored).quantity,
    (pipelined.staged.terms member).2]
  decide

theorem Pipelined.length_settled_le {bot : Bot} (pipelined : bot.Pipelined) :
    bot.system.settledRequests.length ≤ 5 := by
  have settled := (Staged.settled_sublist bot.system
    bot.feed.request?.toList).length_le.trans_eq
      pipelined.staged.requests.length_eq
  rw [requestsOf, List.length_map, List.length_zipIdx] at settled
  exact settled.trans pipelined.staged.few

/-- Five signals of 100 each stay within `maxPositionSize`. -/
theorem Pipelined.positionSize {bot : Bot} (pipelined : bot.Pipelined) :
    (bot.system.orderManager.netTraded.natAbs : Rat) ≤
      mainLimits.maxPositionSize := by
  have few := pipelined.length_settled_le
  have sum := onSide_add_offSide .buy bot.system.settledRequests
  have small : bot.system.orderManager.netTraded.natAbs ≤ 500 := by
    rw [pipelined.netTraded .buy, OrderSide.sign_buy]
    omega
  calc
    (bot.system.orderManager.netTraded.natAbs : Rat) ≤ (500 : Nat) :=
      Nat.cast_le.mpr small
    _ ≤ mainLimits.maxPositionSize := by norm_num [mainLimits]

/-- A settled request bounds the position by its peak in any requests that
contain the settled ones. -/
theorem Pipelined.netTraded_le_peak {bot : Bot} (pipelined : bot.Pipelined)
    {request : ExecutionRequest} (settled : request ∈ bot.system.settledRequests)
    {requests : List ExecutionRequest}
    (among : ∀ other ∈ bot.system.settledRequests, other ∈ requests) :
    bot.system.orderManager.netTraded.natAbs ≤
      peakPosition request.side requests := by
  have last : 0 < onSide request.side bot.system.settledRequests :=
    List.countP_pos_iff.mpr ⟨request, settled, by simp⟩
  rw [pipelined.netTraded request.side]
  exact natAbs_le_peak request.side
    (List.subperm_of_subset (pipelined.staged.settled_distinct.of_map _)
      fun other => among other) last

theorem limitsHold_of_fits {bot : Bot} (reached : machine.Reachable bot)
    {ticks : List MarketTick} (within : bot.published <+: ticks)
    (fits : ExposureFits ticks) : bot.LimitsHold := by
  have pipelined := Pipelined.of_reachable reached
  have traced := Traced.of_reachable reached
  refine ⟨fun _ _ stored => pipelined.orderSize stored,
    pipelined.positionSize, ?_⟩
  intro trade appended
  obtain ⟨request, settled, tick, executedAt, rfl, earlier, initial, member,
    others⟩ := traced.last trade appended
  have bound := fits earlier tick (initial.trans within) request member
  have below := pipelined.netTraded_le_peak settled others
  change bot.system.orderManager.netTraded.natAbs *
    executionPrice request tick ≤ _
  rcases le_total 0 (executionPrice request tick) with nonneg | nonpos
  · calc
      (bot.system.orderManager.netTraded.natAbs : Rat) *
          executionPrice request tick ≤
          peakPosition request.side (requestsOf (signals (earlier ++ [tick]))) *
            executionPrice request tick :=
        mul_le_mul_of_nonneg_right (Nat.cast_le.mpr below) nonneg
      _ ≤ mainLimits.maxExposure := bound
  · calc
      (bot.system.orderManager.netTraded.natAbs : Rat) *
          executionPrice request tick ≤ 0 :=
        mul_nonpos_of_nonneg_of_nonpos (Nat.cast_nonneg _) nonpos
      _ ≤ mainLimits.maxExposure := by norm_num [mainLimits]

/-- Between two ticks, with every request of the stream still queued. -/
structure Quiet (bot : Bot) (ticks : List MarketTick) : Prop where
  reached : machine.Reachable bot
  feed : bot.feed = .idle
  loop : bot.system.loop = .waiting
  published : bot.published = ticks
  queue : bot.system.executionQueue = requestsOf (signals ticks)
  trades : bot.system.orderManager.trades = []

private theorem reachable_silent {bot : Bot} {tick : MarketTick}
    {listener : ListenerId} {waiting : List ListenerId}
    (reached : machine.Reachable bot)
    (stage : bot.feed = .delivering tick (listener :: waiting))
    (silent : bot.listener.signal tick = none) :
    machine.Reachable { bot with
      listener := bot.listener.afterTick tick
      feed := .delivering tick waiting } :=
  reached.step .onTick
    (onTick_eq_some.mpr
      ⟨tick, listener, waiting, stage, .inr ⟨silent, rfl⟩⟩)

private theorem reachable_placing {bot : Bot} {tick : MarketTick}
    {order : Order} {listener : ListenerId} {waiting : List ListenerId}
    (reached : machine.Reachable bot)
    (stage : bot.feed = .delivering tick (listener :: waiting))
    (signalled : bot.listener.signal tick = some order) :
    machine.Reachable { bot with feed := .placing tick order waiting } :=
  reached.step .onTick
    (onTick_eq_some.mpr
      ⟨tick, listener, waiting, stage, .inl ⟨order, signalled, rfl⟩⟩)

theorem Quiet.publish {bot : Bot} {earlier : List MarketTick}
    (quiet : bot.Quiet earlier) {tick : MarketTick}
    (simulated : tick.Simulated) :
    ∃ next : Bot, next.Quiet (earlier ++ [tick]) := by
  obtain ⟨reached, feed, loop, rfl, queue, trades⟩ := quiet
  have pipelined := Pipelined.of_reachable reached
  have signals := signals_append bot.published tick
  rw [signalAfter, ← pipelined.listener_idle feed] at signals
  have stepped := publishTick_eq_some.mpr ⟨feed, simulated, rfl⟩
  rw [pipelined.notified simulated] at stepped
  have delivering := reached.step (.publishTick tick) stepped
  cases signalled : bot.listener.signal tick with
  | none =>
      have delivered := reachable_silent delivering rfl signalled
      have idle := delivered.step .returnPublishTick rfl
      refine ⟨_, idle, rfl, loop, rfl, ?_, trades⟩
      rw [signals, signalled]
      simpa [System.publishTick] using queue
  | some order =>
      have placing := reachable_placing delivering rfl signalled
      have submitting := placing.step .placeOrder rfl
      have returning := submitting.step .submitOrder rfl
      have delivered := returning.step .returnOnTick rfl
      have idle := delivered.step .returnPublishTick rfl
      refine ⟨_, idle, rfl, loop, rfl, ?_, trades⟩
      rw [signals, signalled, Option.map_some, Option.toList_some,
        requestsOf_append, ← queue]
      simp [System.submitOrder, System.placeOrder, System.publishTick,
        (pipelined.staged_idle feed).counter, Signal.request]

theorem exists_quiet {ticks : List MarketTick}
    (simulated : ∀ tick ∈ ticks, tick.Simulated) :
    ∃ bot : Bot, bot.Quiet ticks := by
  induction ticks using List.reverseRecOn with
  | nil => exact ⟨init, Library.Machine.Reachable.init, rfl, rfl, rfl, rfl, rfl⟩
  | append_singleton earlier tick induction =>
      obtain ⟨bot, quiet⟩ := induction fun other member =>
        simulated other (List.mem_append_left _ member)
      exact quiet.publish (simulated tick (by simp))

/-- Any queued request can be executed next, the market standing still. -/
theorem exists_execution {bot : Bot} (reached : machine.Reachable bot)
    (feed : bot.feed = .idle) (loop : bot.system.loop = .waiting)
    {request : ExecutionRequest}
    (queued : request ∈ bot.system.executionQueue) :
    ∃ next : Bot, machine.Reachable next ∧ next.feed = .idle ∧
      next.system.loop = .waiting ∧ next.published = bot.published ∧
      next.system.marketData = bot.system.marketData ∧
      next.system.executionQueue = bot.system.executionQueue.erase request ∧
      next.system.orderManager.trades = bot.system.orderManager.trades ++
        [executedTrade request (bot.system.marketData.getLatestTick "AAPL")
          default] := by
  have staged := (Pipelined.of_reachable reached).staged_idle feed
  have placed : ∀ other ∈ bot.system.executionQueue,
      other ∈ requestsOf (signals bot.published) := by
    intro other waiting
    refine staged.requests.mem_iff.mp (List.mem_append_left _ ?_)
    simp [System.unexecuted, waiting]
  have top : IsTop bot.system.executionQueue request := by
    refine ⟨queued, fun other waiting => ?_⟩
    simp [ExecutionRequest.after, requestsOf_priority (placed other waiting),
      requestsOf_priority (placed request queued)]
  obtain ⟨symbol, quantity⟩ := staged.terms (placed request queued)
  have taken := reached.step (.takeRequest request)
    (show Bot.loopStep _ _ = some _ from loopStep_eq_some.mpr
      ⟨_, System.takeRequest_eq_some.mpr ⟨loop, top, rfl⟩, rfl⟩)
  have quoted := taken.step .getLatestTick
    (show Bot.getLatestTick _ = some _ from getLatestTick_eq_some.mpr
      ⟨feed, _, rfl, rfl⟩)
  have executed := quoted.step .simulateOrderExecution
    (show Bot.loopStep _ _ = some _ from loopStep_eq_some.mpr
      ⟨_, System.simulateOrderExecution_eq_some.mpr
        ⟨request, _, rfl, by simp [quantity], rfl⟩, rfl⟩)
  have traded := executed.step (.simulateTrade default) rfl
  have returned := traded.step (.recordLatency 0) rfl
  exact ⟨_, returned, feed, rfl, rfl, rfl, rfl,
    by simp [System.finishRequest, symbol]⟩

/-- Any of the queued requests can be executed in any order. -/
theorem exists_executions {requests : List ExecutionRequest} {bot : Bot}
    (reached : machine.Reachable bot) (feed : bot.feed = .idle)
    (loop : bot.system.loop = .waiting)
    (queued : requests.Subperm bot.system.executionQueue) :
    ∃ next : Bot, machine.Reachable next ∧ next.published = bot.published ∧
      next.system.orderManager.trades = bot.system.orderManager.trades ++
        requests.map fun request =>
          executedTrade request (bot.system.marketData.getLatestTick "AAPL")
            default := by
  induction requests generalizing bot with
  | nil => exact ⟨bot, reached, rfl, by simp⟩
  | cons request rest induction =>
      obtain ⟨middle, reached, feed, loop, published, marketData, queue,
        trades⟩ := exists_execution reached feed loop
          (queued.subset List.mem_cons_self)
      have remaining := queued.erase request
      rw [List.erase_cons_head, ← queue] at remaining
      obtain ⟨next, reached, same, appended⟩ := induction reached feed loop remaining
      refine ⟨next, reached, same.trans published, ?_⟩
      rw [appended, trades, marketData, List.map_cons, List.append_assoc,
        List.singleton_append]

/-- Everything on a request's side, the request last. -/
private theorem exists_onSide {requests : List ExecutionRequest}
    {request : ExecutionRequest} (member : request ∈ requests) :
    ∃ others, (others ++ [request]).Subperm requests ∧
      onSide request.side (others ++ [request]) =
        onSide request.side requests ∧
      offSide request.side (others ++ [request]) = 0 := by
  have same : request ∈ requests.filter
      fun other => decide (other.side = request.side) := by
    simp [member]
  have moved := (List.perm_append_singleton request
    ((requests.filter fun other =>
      decide (other.side = request.side)).erase request)).trans
        (List.perm_cons_erase same).symm
  refine ⟨_, moved.subperm.trans List.filter_sublist.subperm, ?_, ?_⟩
  · rw [onSide, moved.countP_eq, List.countP_filter]
    simp [onSide]
  · rw [offSide, moved.countP_eq, List.countP_filter]
    simp

/-- Everything on the other side, and the request last. -/
private theorem exists_offSide {requests : List ExecutionRequest}
    {request : ExecutionRequest} (member : request ∈ requests) :
    ∃ others, (others ++ [request]).Subperm requests ∧
      onSide request.side (others ++ [request]) = 1 ∧
      offSide request.side (others ++ [request]) =
        offSide request.side requests := by
  have whole := List.filter_append_perm
    (fun other : ExecutionRequest => decide (other.side ≠ request.side))
    requests
  have rest : request ∈ requests.filter fun other =>
      !decide (other.side ≠ request.side) := by
    simp [member]
  refine ⟨requests.filter fun other => decide (other.side ≠ request.side),
    ?_, ?_, ?_⟩
  · exact ((List.singleton_sublist.mpr rest).append_left _).subperm.trans
      whole.subperm
  · rw [onSide, List.countP_append, List.countP_filter]
    simp
  · rw [offSide, List.countP_append, List.countP_filter]
    simp [offSide]

/-- Executing some requests and then the given one can leave the peak. -/
private theorem exists_peak {requests : List ExecutionRequest}
    {request : ExecutionRequest} (member : request ∈ requests) :
    ∃ others, (others ++ [request]).Subperm requests ∧
      peakPosition request.side requests =
        (request.side.sign * 100 *
          ((onSide request.side (others ++ [request]) : Int) -
            offSide request.side (others ++ [request]))).natAbs := by
  have some : 0 < onSide request.side requests :=
    List.countP_pos_iff.mpr ⟨request, member, by simp⟩
  rcases le_total (offSide request.side requests - 1)
      (onSide request.side requests) with more | more
  · obtain ⟨others, among, on, off⟩ := exists_onSide member
    refine ⟨others, among, ?_⟩
    rw [on, off, peakPosition, max_eq_left more]
    rcases request.side.sign_eq with sign | sign <;> rw [sign] <;> omega
  · obtain ⟨others, among, on, off⟩ := exists_offSide member
    refine ⟨others, among, ?_⟩
    rw [on, off, peakPosition, max_eq_right more]
    rcases request.side.sign_eq with sign | sign <;> rw [sign] <;> omega

theorem fits_of_limitsHold {ticks : List MarketTick}
    (simulated : ∀ tick ∈ ticks, tick.Simulated)
    (holds : ∀ bot, machine.Reachable bot → bot.published <+: ticks →
      bot.LimitsHold) : ExposureFits ticks := by
  intro earlier tick initial request member
  obtain ⟨bot, quiet⟩ := exists_quiet fun other within =>
    simulated other (initial.subset within)
  obtain ⟨others, among, peak⟩ := exists_peak member
  rw [← quiet.queue] at among
  obtain ⟨final, reached, published, trades⟩ :=
    exists_executions quiet.reached quiet.feed quiet.loop among
  have pipelined := Pipelined.of_reachable quiet.reached
  have latest : bot.system.marketData.getLatestTick "AAPL" = tick := by
    apply pipelined.latest
    rw [quiet.published, List.getLast?_concat]
    rfl
  rw [quiet.trades, List.nil_append, latest] at trades
  have within : final.published <+: ticks := by
    rw [published, quiet.published]
    exact initial
  have net : final.system.orderManager.netTraded.natAbs =
      peakPosition request.side (requestsOf (signals (earlier ++ [tick]))) := by
    rw [peak, ← net_of_hundreds, OrderManager.netTraded, trades, List.map_map]
    · rfl
    · intro other queued
      have staged := pipelined.staged_idle quiet.feed
      rw [quiet.published] at staged
      rw [quiet.queue] at among
      exact (staged.terms (among.subset queued)).2
  have exposure := (holds final reached within).exposure
    (executedTrade request tick default) (by simp [trades])
  rw [net] at exposure
  exact exposure

/-- For a stream of simulated ticks, the configured limits hold in every
reachable state exactly if the exposure of its signals fits. -/
theorem limitsHold_iff_fits {ticks : List MarketTick}
    (simulated : ∀ tick ∈ ticks, tick.Simulated) :
    (∀ bot, machine.Reachable bot → bot.published <+: ticks →
        bot.LimitsHold) ↔
      ExposureFits ticks :=
  ⟨fits_of_limitsHold simulated, fun fits _ reached within =>
    limitsHold_of_fits reached within fits⟩

theorem limitsHold_iff_fits_two_ticks :
    (∀ bot, machine.Reachable bot →
        bot.published <+: [simulatedTick 100, simulatedTick 101] →
          bot.LimitsHold) ↔
      ExposureFits [simulatedTick 100, simulatedTick 101] :=
  limitsHold_iff_fits (by decide +kernel)

private def dearBuy : List BotAction :=
  [.publishTick (simulatedTick 600), .onTick, .returnPublishTick,
    .publishTick (simulatedTick 601), .onTick, .placeOrder, .submitOrder,
    .returnOnTick, .returnPublishTick,
    .takeRequest
      (requestFor 1000 (signalOrder "AAPL" .buy (60099 / 100)) default),
    .getLatestTick, .simulateOrderExecution, .simulateTrade default]

theorem dear_buy_exceeds_exposure :
    ∃ bot, machine.run init dearBuy = some bot ∧ ¬ bot.LimitsHold := by
  have exceeds : (machine.run init dearBuy).any (fun bot =>
      bot.system.orderManager.trades.getLast?.any fun trade =>
        decide (mainLimits.maxExposure <
          bot.system.orderManager.netTraded.natAbs * trade.price)) := by
    decide +kernel
  obtain ⟨bot, ran, exceeds⟩ := (Option.any_eq_true _ _).mp exceeds
  obtain ⟨trade, last, exceeds⟩ := (Option.any_eq_true _ _).mp exceeds
  refine ⟨bot, ran, fun holds => ?_⟩
  exact absurd (holds.exposure trade last) (not_le.mpr (of_decide_eq_true exceeds))

end Bot

end TradingBot
