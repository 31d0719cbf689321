import TradingBot.Bot
import TradingBot.Library.Grouping
import Mathlib.Data.List.Perm.Basic

namespace TradingBot

open DemoStrategyListener Library

/-! Every signal of the stream becomes exactly one order, one request and one
trade. -/

def LoopStage.unexecuted : LoopStage → List ExecutionRequest
  | .taken request => [request]
  | .quoted request _ => [request]
  | _ => []

def LoopStage.executing : LoopStage → List ExecutionRequest
  | .executed request _ => [request]
  | .traded request _ => [request]
  | _ => []

def LoopStage.settling : LoopStage → List ExecutionRequest
  | .traded request _ => [request]
  | _ => []

def LoopStage.quote? : LoopStage → Option (ExecutionRequest × MarketTick)
  | .quoted request latestTick => some (request, latestTick)
  | .executed request latestTick => some (request, latestTick)
  | .traded request latestTick => some (request, latestTick)
  | _ => none

inductive OrderStage where
  | placed
  | queued
  | inFlight
  | done
  deriving DecidableEq

/-- The ticks whose signal, if any, has become an order. -/
def FeedStage.handled (ticks : List MarketTick) : FeedStage → List MarketTick
  | .delivering _ (_ :: _) => ticks.dropLast
  | .placing _ _ _ => ticks.dropLast
  | _ => ticks

namespace System

variable (system : System)

/-- The submitted requests for which `simulateOrderExecution` has not run. -/
def unexecuted : List ExecutionRequest :=
  system.executionQueue ++ system.loop.unexecuted

/-- The requests for which `simulateOrderExecution` has run. -/
def executedRequests : List ExecutionRequest :=
  system.executed ++ system.loop.executing

/-- The requests for which `simulateTrade` has run. -/
def settledRequests : List ExecutionRequest :=
  system.executed ++ system.loop.settling

end System

namespace Bot

variable (bot : Bot)

def requestsIn : OrderStage → List ExecutionRequest
  | .placed => bot.feed.request?.toList
  | .queued => bot.system.executionQueue
  | .inFlight => bot.system.loop.request?.toList
  | .done => bot.system.executed

def unexecuted : List ExecutionRequest :=
  bot.feed.request?.toList ++ bot.system.unexecuted

def signalOf (orderId : UInt64) : Option Signal :=
  (signals bot.published)[orderId.toNat - 1000]?

structure Stores (request : ExecutionRequest) (order : Order) :
    Prop where
  orderId : order.orderId = request.orderId
  symbol : order.symbol = request.symbol
  side : order.side = request.side
  price : order.price = request.price
  quantity : order.quantity = request.quantity

/-- The terms of a trade of an order: the order's own, at the better of its
price and a quote that is not older than the order's tick. -/
structure SettlesAt (order : Order) (trade : Trade) : Prop where
  symbol : trade.symbol = order.symbol
  side : trade.side = order.side
  quantity : trade.quantity = order.quantity
  price : ∃ signal ∈ bot.signalOf order.orderId, ∃ index tick,
    signal.index ≤ index ∧ bot.published[index]? = some tick ∧
      trade.price =
        match order.side with
        | .buy => min order.price tick.ask
        | .sell => max order.price tick.bid

/-- What is true of one order in the order manager. -/
structure OrderLaw (orderId : UInt64) (order : Order) : Prop where
  identified : order.orderId = orderId
  signalled : ∃ signal ∈ bot.signalOf orderId,
    bot.published[signal.index]? = some signal.tick ∧
      order.symbol = signal.order.symbol ∧ order.side = signal.order.side ∧
      order.price = signal.order.price ∧ order.quantity = signal.order.quantity
  once : ∃ stage, ∀ other,
    (bot.requestsIn other).countP (fun request => request.orderId = orderId) =
      if other = stage then 1 else 0
  pending : (∃ request ∈ bot.unexecuted, request.orderId = orderId) →
    order.status = .pending
  filled :
    (∃ request ∈ bot.system.executedRequests, request.orderId = orderId) →
    order.status = .filled ∧ order.filledQuantity = order.quantity
  untraded :
    (¬ ∃ request ∈ bot.system.settledRequests, request.orderId = orderId) →
    bot.system.orderManager.tradesOf orderId = []
  traded :
    (∃ request ∈ bot.system.settledRequests, request.orderId = orderId) →
    ∃ trade, bot.system.orderManager.tradesOf orderId = [trade] ∧
      bot.SettlesAt order trade

/-- Every stored order keeps its law; every signal handled so far has its order
in the order manager, and every request and every trade names a stored order. -/
structure PipelineLaw : Prop where
  orders : ∀ (orderId : UInt64) (order : Order),
    bot.system.orderManager.orders[orderId]? = some order →
      bot.OrderLaw orderId order
  signalsPlaced : ∀ (position : Nat) (signal : Signal),
    (signals (bot.feed.handled bot.published))[position]? = some signal →
      ∃ order,
        bot.system.orderManager.orders[orderIdAt position]? = some order
  requestsPlaced : ∀ (stage : OrderStage), ∀ request ∈ bot.requestsIn stage,
    ∃ order,
      bot.system.orderManager.orders[request.orderId]? = some order ∧
        Stores request order
  tradesPlaced : ∀ trade ∈ bot.system.orderManager.trades,
    ∃ order, bot.system.orderManager.orders[trade.orderId]? = some order

end Bot

def orderOf (request : ExecutionRequest) : Order :=
  { signalOrder request.symbol request.side request.price with
    orderId := request.orderId }

/-- The tick is one that a signal's request may trade against. -/
def Quoted (placed : List Signal) (ticks : List MarketTick)
    (request : ExecutionRequest) (tick : MarketTick) : Prop :=
  ∃ (position : Nat) (signal : Signal) (index : Nat),
    placed[position]? = some signal ∧ request = signal.request position ∧
      signal.index ≤ index ∧ ticks[index]? = some tick

def Settles (placed : List Signal) (ticks : List MarketTick)
    (request : ExecutionRequest) (trade : Trade) : Prop :=
  ∃ tick executedAt, Quoted placed ticks request tick ∧
    trade = executedTrade request tick executedAt

/-- A signal of the stream with the order that `onTick` makes. -/
structure Signal.Genuine (signal : Signal) (ticks : List MarketTick) : Prop where
  tick : ticks[signal.index]? = some signal.tick
  order : ∃ side price, signal.order = signalOrder "AAPL" side price

/-- The shared objects once the `placed` signals of the published `ticks` have
become orders, the `awaiting` ones not being submitted yet. -/
structure Staged (system : System) (awaiting : List ExecutionRequest)
    (placed : List Signal) (ticks : List MarketTick) : Prop where
  few : placed.length ≤ 5
  genuine : ∀ signal ∈ placed, signal.Genuine ticks
  counter : system.orderManager.orderIdCounter = orderIdAt placed.length
  requests :
    ((awaiting ++ system.unexecuted) ++ system.executedRequests).Perm
      (requestsOf placed)
  pending : ∀ request ∈ awaiting ++ system.unexecuted,
    system.orderManager.orders[request.orderId]? = some (orderOf request)
  filled : ∀ request ∈ system.executedRequests,
    system.orderManager.orders[request.orderId]? =
      some (OrderManager.executedOrder (orderOf request) request.quantity)
  known : ∀ orderId order, system.orderManager.orders[orderId]? = some order →
    ∃ request ∈ requestsOf placed, request.orderId = orderId
  settled : List.Forall₂ (Settles placed ticks) system.settledRequests
    system.orderManager.trades
  quoted : ∀ quote ∈ system.loop.quote?, Quoted placed ticks quote.1 quote.2

theorem LoopStage.request?_toList (loop : LoopStage) :
    loop.request?.toList = loop.unexecuted ++ loop.executing := by
  cases loop <;> rfl

private theorem getElem?_of_isPrefix {first second : List α} {index : Nat}
    {value : α} (initial : first <+: second)
    (found : first[index]? = some value) : second[index]? = some value := by
  obtain ⟨rest, rfl⟩ := initial
  rw [List.getElem?_append_left (List.getElem?_eq_some_iff.mp found).1]
  exact found

theorem Quoted.mono {placed placed' : List Signal}
    {ticks ticks' : List MarketTick} {request : ExecutionRequest}
    {tick : MarketTick} (quoted : Quoted placed ticks request tick)
    (signals : placed <+: placed') (published : ticks <+: ticks') :
    Quoted placed' ticks' request tick := by
  obtain ⟨position, signal, index, found, rfl, order, quote⟩ := quoted
  exact ⟨position, signal, index, getElem?_of_isPrefix signals found, rfl, order,
    getElem?_of_isPrefix published quote⟩

theorem Settles.mono {placed placed' : List Signal}
    {ticks ticks' : List MarketTick} {request : ExecutionRequest}
    {trade : Trade} (settles : Settles placed ticks request trade)
    (signals : placed <+: placed') (published : ticks <+: ticks') :
    Settles placed' ticks' request trade := by
  obtain ⟨tick, executedAt, quoted, rfl⟩ := settles
  exact ⟨tick, executedAt, quoted.mono signals published, rfl⟩

namespace Staged

variable {system : System} {awaiting : List ExecutionRequest}
  {placed : List Signal} {ticks : List MarketTick}

theorem distinct (staged : Staged system awaiting placed ticks) :
    (((awaiting ++ system.unexecuted) ++ system.executedRequests).map
      ExecutionRequest.orderId).Nodup :=
  (staged.requests.map _).nodup_iff.mpr (requestsOf_ids_nodup staged.few)

theorem alone (staged : Staged system awaiting placed ticks)
    {request : ExecutionRequest} {rest : List ExecutionRequest}
    (split : ((awaiting ++ system.unexecuted) ++ system.executedRequests).Perm
      (request :: rest)) :
    ∀ other ∈ rest, other.orderId ≠ request.orderId := by
  have distinct := (split.map ExecutionRequest.orderId).nodup_iff.mp
    staged.distinct
  rw [List.map_cons, List.nodup_cons] at distinct
  intro other member same
  exact distinct.1 (List.mem_map.mpr ⟨other, member, same⟩)

theorem settled_sublist (system : System)
    (awaiting : List ExecutionRequest) :
    system.settledRequests.Sublist
      ((awaiting ++ system.unexecuted) ++ system.executedRequests) := by
  have settling : system.loop.settling.Sublist system.loop.executing := by
    cases system.loop <;> simp [LoopStage.settling, LoopStage.executing]
  exact (List.Sublist.append_left settling _).trans
    (List.sublist_append_right _ _)

theorem settled_distinct (staged : Staged system awaiting placed ticks) :
    (system.settledRequests.map ExecutionRequest.orderId).Nodup :=
  staged.distinct.sublist ((settled_sublist system awaiting).map _)

theorem settled_placed (staged : Staged system awaiting placed ticks)
    {request : ExecutionRequest} (member : request ∈ system.settledRequests) :
    request ∈ requestsOf placed :=
  staged.requests.mem_iff.mp ((settled_sublist system awaiting).subset member)

theorem terms (staged : Staged system awaiting placed ticks)
    {request : ExecutionRequest} (member : request ∈ requestsOf placed) :
    request.symbol = "AAPL" ∧ request.quantity = 100 := by
  obtain ⟨position, signal, found, rfl⟩ := mem_requestsOf.mp member
  obtain ⟨side, price, order⟩ :=
    (staged.genuine signal (List.mem_of_getElem? found)).order
  simp [Signal.request, requestFor, order, signalOrder]

theorem inFlight_placed (staged : Staged system awaiting placed ticks)
    {request : ExecutionRequest}
    (current : system.loop.request? = some request) :
    request ∈ requestsOf placed := by
  have member : request ∈ system.loop.unexecuted ++ system.loop.executing := by
    rw [← LoopStage.request?_toList, current]
    exact List.mem_cons_self
  apply staged.requests.mem_iff.mp
  rcases List.mem_append.mp member with unexecuted | executing
  · exact List.mem_append_left _
      (List.mem_append_right _ (List.mem_append_right _ unexecuted))
  · exact List.mem_append_right _ (List.mem_append_right _ executing)

theorem inFlight_quantity (staged : Staged system awaiting placed ticks)
    {request : ExecutionRequest}
    (current : system.loop.request? = some request) :
    request.quantity ≠ 0 := by
  rw [(staged.terms (staged.inFlight_placed current)).2]
  decide

theorem init (marketData : MarketDataHandler) :
    Staged (System.init marketData) [] [] [] where
  few := by simp
  genuine := by simp
  counter := rfl
  requests := by
    simp [System.init, System.unexecuted, System.executedRequests,
      LoopStage.unexecuted, LoopStage.executing]
  pending := by
    simp [System.init, System.unexecuted, LoopStage.unexecuted]
  filled := by
    simp [System.init, System.executedRequests, LoopStage.executing]
  known := by simp [System.init]
  settled := by
    simp [System.init, System.settledRequests, LoopStage.settling]
  quoted := by simp [System.init, LoopStage.quote?]

theorem publish (staged : Staged system awaiting placed ticks)
    (marketData : MarketDataHandler) {published : List MarketTick}
    (extended : ticks <+: published) :
    Staged { system with marketData } awaiting placed published where
  few := staged.few
  genuine signal member :=
    { tick := getElem?_of_isPrefix extended (staged.genuine signal member).tick
      order := (staged.genuine signal member).order }
  counter := staged.counter
  requests := staged.requests
  pending := staged.pending
  filled := staged.filled
  known := staged.known
  settled := staged.settled.imp fun _ _ settles =>
    settles.mono (List.prefix_refl _) extended
  quoted quote member :=
    (staged.quoted quote member).mono (List.prefix_refl _) extended

theorem placeOrder (staged : Staged system [] placed ticks)
    {signal : Signal} (room : placed.length < 5)
    (genuine : signal.Genuine ticks) :
    Staged (system.placeOrder signal.order)
      [signal.request placed.length] (placed ++ [signal]) ticks := by
  have extended := List.prefix_append placed [signal]
  have kept : ∀ request ∈ requestsOf placed,
      (system.placeOrder signal.order).orderManager.orders[request.orderId]? =
        system.orderManager.orders[request.orderId]? := by
    intro request member
    rw [System.placeOrder, OrderManager.placeOrder_orders, staged.counter,
      if_neg (orderId_ne_next room member)]
  have earlier : ∀ request,
      request ∈ ([] ++ system.unexecuted) ++ system.executedRequests →
        request ∈ requestsOf placed :=
    fun request member => staged.requests.mem_iff.mp member
  exact
    { few := by
        rw [List.length_append, List.length_singleton]
        exact room
      genuine := by
        intro other member
        rcases List.mem_append.mp member with member | member
        · exact staged.genuine other member
        · rw [List.mem_singleton.mp member]
          exact genuine
      counter := by
        simp only [System.placeOrder, OrderManager.placeOrder_counter,
          staged.counter, List.length_append, List.length_singleton, orderIdAt,
          ← Nat.add_assoc, UInt64.ofNat_add]
        rfl
      requests := by
        rw [requestsOf_append]
        exact (List.Perm.cons _ staged.requests).trans
          (List.perm_append_singleton _ _).symm
      pending := by
        intro request member
        rcases List.mem_cons.mp member with rfl | member
        · obtain ⟨side, price, order⟩ := genuine.order
          simp [System.placeOrder, OrderManager.placeOrder_orders,
            staged.counter, Signal.request, requestFor, orderOf, order,
            signalOrder]
        · rw [kept request (earlier request (List.mem_append_left _ member))]
          exact staged.pending request member
      filled := by
        intro request member
        rw [kept request (earlier request (List.mem_append_right _ member))]
        exact staged.filled request member
      known := by
        intro orderId order stored
        rw [requestsOf_append]
        rw [System.placeOrder, OrderManager.placeOrder_orders] at stored
        split at stored
        next same =>
            exact ⟨_, List.mem_append_right _ List.mem_cons_self,
              (same.trans staged.counter).symm⟩
        next =>
            obtain ⟨request, member, identified⟩ :=
              staged.known orderId order stored
            exact ⟨request, List.mem_append_left _ member, identified⟩
      settled := staged.settled.imp fun _ _ settles =>
        settles.mono extended (List.prefix_refl _)
      quoted := fun quote member =>
        (staged.quoted quote member).mono extended (List.prefix_refl _) }

theorem rearrange (staged : Staged system awaiting placed ticks)
    {next : System} {waiting : List ExecutionRequest}
    (manager : next.orderManager = system.orderManager)
    (unexecuted : (waiting ++ next.unexecuted).Perm
      (awaiting ++ system.unexecuted))
    (executed : next.executedRequests = system.executedRequests)
    (settled : next.settledRequests = system.settledRequests)
    (quoted : ∀ quote ∈ next.loop.quote?,
      Quoted placed ticks quote.1 quote.2) :
    Staged next waiting placed ticks where
  few := staged.few
  genuine := staged.genuine
  counter := manager ▸ staged.counter
  requests := by
    rw [executed]
    exact (unexecuted.append_right _).trans staged.requests
  pending request member := by
    rw [manager]
    exact staged.pending request (unexecuted.mem_iff.mp member)
  filled request member := by
    rw [manager]
    exact staged.filled request (executed ▸ member)
  known := manager ▸ staged.known
  settled := by
    rw [settled, manager]
    exact staged.settled
  quoted := quoted

theorem submitOrder {request : ExecutionRequest}
    (staged : Staged system [request] placed ticks) :
    Staged (system.submitOrder request) [] placed ticks := by
  refine staged.rearrange rfl ?_ rfl rfl staged.quoted
  simp [System.submitOrder, System.unexecuted]

theorem takeRequest {next : System} {request : ExecutionRequest}
    (staged : Staged system awaiting placed ticks)
    (stepped : system.takeRequest request = some next) :
    Staged next awaiting placed ticks := by
  obtain ⟨stage, top, rfl⟩ := System.takeRequest_eq_some.mp stepped
  refine staged.rearrange rfl (List.Perm.append_left _ ?_) ?_ ?_ ?_
  · have moved := List.perm_cons_erase top.1
    simpa [System.unexecuted, stage, LoopStage.unexecuted] using
      (List.perm_append_singleton _ _).trans moved.symm
  · simp [System.executedRequests, stage, LoopStage.executing]
  · simp [System.settledRequests, stage, LoopStage.settling]
  · simp [LoopStage.quote?]

theorem getLatestTick {next : System}
    (staged : Staged system awaiting placed ticks)
    (latest : ∀ tick ∈ ticks.getLast?,
      system.marketData.getLatestTick "AAPL" = tick)
    (stepped : system.getLatestTick = some next) :
    Staged next awaiting placed ticks := by
  obtain ⟨request, stage, rfl⟩ := System.getLatestTick_eq_some.mp stepped
  have member := staged.inFlight_placed (by rw [stage, LoopStage.request?])
  refine staged.rearrange rfl ?_ ?_ ?_ ?_
  · simp [System.unexecuted, stage, LoopStage.unexecuted]
  · simp [System.executedRequests, stage, LoopStage.executing]
  · simp [System.settledRequests, stage, LoopStage.settling]
  · intro quote current
    cases current
    rw [(staged.terms member).1]
    obtain ⟨position, signal, found, rfl⟩ := mem_requestsOf.mp member
    have published :=
      (staged.genuine signal (List.mem_of_getElem? found)).tick
    have within := (List.getElem?_eq_some_iff.mp published).1
    refine ⟨position, signal, ticks.length - 1, found, rfl, by omega, ?_⟩
    rw [← List.getLast?_eq_getElem?, List.getLast?_eq_some_getLast
      (List.ne_nil_of_length_pos (by omega))]
    exact congrArg some (latest _ (List.getLast?_eq_some_getLast _)).symm

theorem simulateOrderExecution {next : System}
    (staged : Staged system awaiting placed ticks)
    (stepped : system.simulateOrderExecution = some next) :
    Staged next awaiting placed ticks := by
  obtain ⟨request, latestTick, stage, _, rfl⟩ :=
    System.simulateOrderExecution_eq_some.mp stepped
  have split : ((awaiting ++ system.unexecuted) ++
      system.executedRequests).Perm
      (request :: ((awaiting ++ system.executionQueue) ++ system.executed)) := by
    simp only [System.unexecuted, System.executedRequests, stage,
      LoopStage.unexecuted, LoopStage.executing, List.append_nil,
      List.append_assoc, List.singleton_append]
    rw [← List.append_assoc awaiting, ← List.append_assoc awaiting]
    exact List.perm_middle
  have alone := staged.alone split
  have own : system.orderManager.orders[request.orderId]? =
      some (orderOf request) := by
    apply staged.pending
    simp [System.unexecuted, stage, LoopStage.unexecuted]
  have kept : ∀ other ∈ (awaiting ++ system.executionQueue) ++ system.executed,
      ∀ price quantity,
        (system.orderManager.simulateOrderExecution request.orderId price
          quantity).manager.orders[other.orderId]? =
          system.orderManager.orders[other.orderId]? := by
    intro other member price quantity
    rw [OrderManager.simulateOrderExecution_orders]
    simp [alone other member]
  exact
    { few := staged.few
      genuine := staged.genuine
      counter := by simpa using staged.counter
      requests := by
        refine List.Perm.trans ?_ (split.symm.trans staged.requests)
        simp only [System.unexecuted, System.executedRequests,
          LoopStage.unexecuted, LoopStage.executing, List.append_nil]
        rw [← List.append_assoc]
        exact List.perm_append_singleton _ _
      pending := by
        intro other member
        have queued : other ∈ awaiting ++ system.executionQueue := by
          simpa [System.unexecuted, LoopStage.unexecuted] using member
        rw [kept other (List.mem_append_left _ queued)]
        apply staged.pending
        rw [System.unexecuted, ← List.append_assoc]
        exact List.mem_append_left _ queued
      filled := by
        intro other member
        rcases List.mem_append.mp member with member | member
        · rw [kept other (List.mem_append_right _ member)]
          exact staged.filled other (List.mem_append_left _ member)
        · rw [List.mem_singleton.mp member,
            OrderManager.simulateOrderExecution_orders, own]
          simp
      known := by
        intro orderId order stored
        rw [OrderManager.simulateOrderExecution_orders] at stored
        obtain ⟨earlier, found, _⟩ := Option.map_eq_some_iff.mp stored
        exact staged.known orderId earlier found
      settled := by
        simpa [System.settledRequests, stage, LoopStage.settling] using
          staged.settled
      quoted := by
        intro quote current
        cases current
        exact staged.quoted (request, latestTick) (by simp [stage, LoopStage.quote?]) }

theorem simulateTrade {next : System} {executedAt : Timestamp}
    (staged : Staged system awaiting placed ticks)
    (stepped : system.simulateTrade executedAt = some next) :
    Staged next awaiting placed ticks := by
  obtain ⟨request, latestTick, stage, rfl⟩ :=
    System.simulateTrade_eq_some.mp stepped
  have quoted : Quoted placed ticks request latestTick :=
    staged.quoted (request, latestTick) (by simp [stage, LoopStage.quote?])
  exact
    { few := staged.few
      genuine := staged.genuine
      counter := staged.counter
      requests := by
        simpa [System.unexecuted, System.executedRequests, stage,
          LoopStage.unexecuted, LoopStage.executing] using staged.requests
      pending := by
        simpa [System.unexecuted, stage, LoopStage.unexecuted] using
          staged.pending
      filled := by
        simpa [System.executedRequests, stage, LoopStage.executing] using
          staged.filled
      known := staged.known
      settled := by
        have settled := staged.settled
        simp only [System.settledRequests, stage, LoopStage.settling,
          List.append_nil] at settled
        exact List.rel_append settled
          (.cons ⟨latestTick, executedAt, quoted, rfl⟩ .nil)
      quoted := by
        intro quote current
        cases current
        exact quoted }

theorem recordLatency {next : System} {latency : UInt64}
    (staged : Staged system awaiting placed ticks)
    (stepped : system.recordLatency latency = some next) :
    Staged next awaiting placed ticks := by
  obtain ⟨request, latestTick, stage, rfl⟩ :=
    System.recordLatency_eq_some.mp stepped
  rcases stage with stage | ⟨stage, zero⟩
  · refine staged.rearrange rfl ?_ ?_ ?_ ?_
    · simp [System.unexecuted, System.finishRequest, stage,
        LoopStage.unexecuted]
    · simp [System.executedRequests, System.finishRequest, stage,
        LoopStage.executing]
    · simp [System.settledRequests, System.finishRequest, stage,
        LoopStage.settling]
    · simp [System.finishRequest, LoopStage.quote?]
  · exact absurd zero
      (staged.inFlight_quantity (by rw [stage, LoopStage.request?]))

end Staged

/-- The listener and the market thread after a stream of ticks. -/
inductive Feeding : List MarketTick → DemoStrategyListener → FeedStage → Prop
  | idle (ticks : List MarketTick) : Feeding ticks (afterTicks ticks) .idle
  | delivering (earlier : List MarketTick) (tick : MarketTick) :
      Feeding (earlier ++ [tick]) (afterTicks earlier) (.delivering tick [0])
  | placing (earlier : List MarketTick) (tick : MarketTick) (order : Order)
      (signalled : (afterTicks earlier).signal tick = some order) :
      Feeding (earlier ++ [tick]) (afterTicks earlier) (.placing tick order [])
  | submitting (earlier : List MarketTick) (tick : MarketTick)
      (request : ExecutionRequest) :
      Feeding (earlier ++ [tick]) (afterTicks earlier)
        (.submitting tick request [])
  | returning (earlier : List MarketTick) (tick : MarketTick) :
      Feeding (earlier ++ [tick]) (afterTicks earlier) (.returning tick [])
  | delivered (earlier : List MarketTick) (tick : MarketTick) :
      Feeding (earlier ++ [tick]) (afterTicks (earlier ++ [tick]))
        (.delivering tick [])

namespace Bot

structure Pipelined (bot : Bot) : Prop where
  subscribed : bot.system.marketData.subscribers "AAPL" = some [0]
  latest : ∀ tick ∈ bot.published.getLast?,
    bot.system.marketData.getLatestTick "AAPL" = tick
  simulated : ∀ tick ∈ bot.published, tick.Simulated
  feeding : Feeding bot.published bot.listener bot.feed
  staged : Staged bot.system bot.feed.request?.toList
    (signals (bot.feed.handled bot.published)) bot.published

theorem pipelined_init : init.Pipelined where
  subscribed := by
    simp [init, System.init, MarketDataHandler.subscribers,
      MarketDataHandler.subscribe, MarketDataHandler.init]
    rfl
  latest := by simp [init]
  simulated := by simp [init]
  feeding := Feeding.idle []
  staged := Staged.init _

theorem genuine_of_signal {earlier : List MarketTick} {tick : MarketTick}
    {order : Order} (simulated : tick.Simulated)
    (signalled : (afterTicks earlier).signal tick = some order) :
    Signal.Genuine ⟨earlier.length, tick, order⟩ (earlier ++ [tick]) where
  tick := by simp
  order := by
    rcases (signal_eq_some signalled).2 with equal | equal
    · exact ⟨.buy, tick.bid, by rw [equal, simulated.symbol]⟩
    · exact ⟨.sell, tick.ask, by rw [equal, simulated.symbol]⟩

theorem Pipelined.loop {bot : Bot} (pipelined : bot.Pipelined)
    {system : System} (marketData : system.marketData = bot.system.marketData)
    (staged : Staged system bot.feed.request?.toList
      (signals (bot.feed.handled bot.published)) bot.published) :
    Pipelined { bot with system } where
  subscribed := marketData ▸ pipelined.subscribed
  latest := marketData ▸ pipelined.latest
  simulated := pipelined.simulated
  feeding := pipelined.feeding
  staged := staged

/-- Between two ticks every signal of the stream has been submitted. -/
theorem Pipelined.staged_idle {bot : Bot} (pipelined : bot.Pipelined)
    (idle : bot.feed = .idle) :
    Staged bot.system [] (signals bot.published) bot.published := by
  have staged := pipelined.staged
  rw [idle] at staged
  exact staged

theorem Pipelined.listener_idle {bot : Bot} (pipelined : bot.Pipelined)
    (idle : bot.feed = .idle) : bot.listener = afterTicks bot.published := by
  have feeding := pipelined.feeding
  rw [idle] at feeding
  generalize bot.listener = listener at feeding ⊢
  generalize bot.published = published at feeding ⊢
  cases feeding
  rfl

theorem Pipelined.notified {bot : Bot} (pipelined : bot.Pipelined)
    {tick : MarketTick} (simulated : tick.Simulated) :
    (bot.system.marketData.publishTick (fun _ => false) tick).2 = [0] := by
  have audience := pipelined.subscribed
  rw [← simulated.symbol] at audience
  rw [MarketDataHandler.publishTick_delivers _ _ audience]
  rfl

theorem Pipelined.publishTick {bot next : Bot} {tick : MarketTick}
    (pipelined : bot.Pipelined) (stepped : bot.publishTick tick = some next) :
    next.Pipelined := by
  obtain ⟨idle, simulated, rfl⟩ := publishTick_eq_some.mp stepped
  have notified := pipelined.notified simulated
  have audience := pipelined.subscribed
  rw [← simulated.symbol] at audience
  exact
    { subscribed := by
        rw [System.publishTick, MarketDataHandler.subscribers_publishTick]
        exact pipelined.subscribed
      latest := by
        intro last found
        rw [List.getLast?_concat] at found
        cases found
        rw [← simulated.symbol]
        exact MarketDataHandler.getLatestTick_publishTick _ _ audience
      simulated := by
        intro other member
        rcases List.mem_append.mp member with member | member
        · exact pipelined.simulated other member
        · rw [List.mem_singleton.mp member]
          exact simulated
      feeding := by
        rw [notified, pipelined.listener_idle idle]
        exact Feeding.delivering bot.published tick
      staged := by
        rw [notified, FeedStage.handled, List.dropLast_concat]
        exact (pipelined.staged_idle idle).publish _
          (List.prefix_append bot.published [tick]) }

theorem Pipelined.onTick {bot next : Bot} (pipelined : bot.Pipelined)
    (stepped : bot.onTick = some next) : next.Pipelined := by
  obtain ⟨subscribed, latest, simulated, feeding, staged⟩ := pipelined
  obtain ⟨tick, listener, waiting, stage, outcome⟩ := onTick_eq_some.mp stepped
  obtain ⟨system, strategy, feed, published⟩ := bot
  dsimp only at *
  subst stage
  obtain _ | ⟨earlier⟩ := feeding
  rw [FeedStage.handled, List.dropLast_concat] at staged
  rcases outcome with ⟨order, signalled, rfl⟩ | ⟨silent, rfl⟩
  · refine ⟨subscribed, latest, simulated, ?_, ?_⟩
    · exact Feeding.placing earlier tick order signalled
    · rw [FeedStage.handled, List.dropLast_concat]
      exact staged
  · refine ⟨subscribed, latest, simulated, ?_, ?_⟩
    · rw [← afterTicks_append]
      exact Feeding.delivered earlier tick
    · change Staged system [] (signals (earlier ++ [tick])) _
      rw [signals_append, signalAfter, silent, Option.map_none,
        Option.toList_none, List.append_nil]
      exact staged

theorem Pipelined.placeOrder {bot next : Bot} (pipelined : bot.Pipelined)
    (stepped : bot.placeOrder = some next) : next.Pipelined := by
  obtain ⟨subscribed, latest, simulated, feeding, staged⟩ := pipelined
  obtain ⟨tick, order, waiting, stage, rfl⟩ := placeOrder_eq_some.mp stepped
  obtain ⟨system, strategy, feed, published⟩ := bot
  dsimp only at *
  subst stage
  obtain _ | _ | ⟨earlier, _, _, signalled⟩ := feeding
  rw [FeedStage.handled, List.dropLast_concat] at staged
  have appended := signals_append earlier tick
  rw [signalAfter, signalled, Option.map_some, Option.toList_some] at appended
  have room : (signals earlier).length < 5 := by
    rw [length_signals]
    exact (signal_eq_some signalled).1
  have genuine := genuine_of_signal (simulated tick (by simp)) signalled
  refine ⟨subscribed, latest, simulated, Feeding.submitting earlier tick _, ?_⟩
  change Staged (system.placeOrder order)
    [requestFor system.orderManager.orderIdCounter order tick.timestamp]
    (signals (earlier ++ [tick])) _
  rw [appended, staged.counter]
  exact staged.placeOrder room genuine

theorem Pipelined.submitOrder {bot next : Bot} (pipelined : bot.Pipelined)
    (stepped : bot.submitOrder = some next) : next.Pipelined := by
  obtain ⟨subscribed, latest, simulated, feeding, staged⟩ := pipelined
  obtain ⟨tick, request, waiting, stage, rfl⟩ := submitOrder_eq_some.mp stepped
  obtain ⟨system, strategy, feed, published⟩ := bot
  dsimp only at *
  subst stage
  obtain _ | _ | _ | ⟨earlier⟩ := feeding
  exact ⟨subscribed, latest, simulated, Feeding.returning earlier tick,
    staged.submitOrder⟩

theorem Pipelined.returnOnTick {bot next : Bot} (pipelined : bot.Pipelined)
    (stepped : bot.returnOnTick = some next) : next.Pipelined := by
  obtain ⟨subscribed, latest, simulated, feeding, staged⟩ := pipelined
  obtain ⟨tick, waiting, stage, rfl⟩ := returnOnTick_eq_some.mp stepped
  obtain ⟨system, strategy, feed, published⟩ := bot
  dsimp only at *
  subst stage
  obtain _ | _ | _ | _ | ⟨earlier⟩ := feeding
  refine ⟨subscribed, latest, simulated, ?_, staged⟩
  rw [← afterTicks_append]
  exact Feeding.delivered earlier tick

theorem Pipelined.returnPublishTick {bot next : Bot}
    (pipelined : bot.Pipelined)
    (stepped : bot.returnPublishTick = some next) : next.Pipelined := by
  obtain ⟨subscribed, latest, simulated, feeding, staged⟩ := pipelined
  obtain ⟨tick, stage, rfl⟩ := returnPublishTick_eq_some.mp stepped
  obtain ⟨system, strategy, feed, published⟩ := bot
  dsimp only at *
  subst stage
  obtain _ | _ | _ | _ | _ | ⟨earlier⟩ := feeding
  exact ⟨subscribed, latest, simulated, Feeding.idle _, staged⟩

theorem Pipelined.publishOrderBook {bot next : Bot} {book : OrderBook}
    (pipelined : bot.Pipelined)
    (stepped : bot.publishOrderBook book = some next) : next.Pipelined := by
  obtain ⟨_, rfl⟩ := publishOrderBook_eq_some.mp stepped
  exact
    { subscribed := by
        rw [System.publishOrderBook,
          MarketDataHandler.subscribers_publishOrderBook]
        exact pipelined.subscribed
      latest := by
        intro tick last
        rw [System.publishOrderBook,
          MarketDataHandler.getLatestTick_publishOrderBook]
        exact pipelined.latest tick last
      simulated := pipelined.simulated
      feeding := pipelined.feeding
      staged := pipelined.staged.publish _ (List.prefix_refl _) }

theorem Pipelined.step {bot next : Bot} {action : BotAction}
    (pipelined : bot.Pipelined) (stepped : bot.step action = some next) :
    next.Pipelined := by
  cases action with
  | publishTick tick => exact pipelined.publishTick stepped
  | onTick => exact pipelined.onTick stepped
  | placeOrder => exact pipelined.placeOrder stepped
  | submitOrder => exact pipelined.submitOrder stepped
  | returnOnTick => exact pipelined.returnOnTick stepped
  | returnPublishTick => exact pipelined.returnPublishTick stepped
  | publishOrderBook book => exact pipelined.publishOrderBook stepped
  | takeRequest request =>
      obtain ⟨system, moved, rfl⟩ := loopStep_eq_some.mp stepped
      obtain ⟨_, _, rfl⟩ := System.takeRequest_eq_some.mp moved
      exact pipelined.loop rfl (pipelined.staged.takeRequest moved)
  | getLatestTick =>
      obtain ⟨_, system, moved, rfl⟩ := getLatestTick_eq_some.mp stepped
      have staged := pipelined.staged.getLatestTick pipelined.latest moved
      obtain ⟨_, _, rfl⟩ := System.getLatestTick_eq_some.mp moved
      exact pipelined.loop rfl staged
  | simulateOrderExecution =>
      obtain ⟨system, moved, rfl⟩ := loopStep_eq_some.mp stepped
      have staged := pipelined.staged.simulateOrderExecution moved
      obtain ⟨_, _, _, _, rfl⟩ := System.simulateOrderExecution_eq_some.mp moved
      exact pipelined.loop rfl staged
  | simulateTrade executedAt =>
      obtain ⟨system, moved, rfl⟩ := loopStep_eq_some.mp stepped
      have staged := pipelined.staged.simulateTrade moved
      obtain ⟨_, _, _, rfl⟩ := System.simulateTrade_eq_some.mp moved
      exact pipelined.loop rfl staged
  | recordLatency latency =>
      obtain ⟨system, moved, rfl⟩ := loopStep_eq_some.mp stepped
      have staged := pipelined.staged.recordLatency moved
      obtain ⟨_, _, _, rfl⟩ := System.recordLatency_eq_some.mp moved
      exact pipelined.loop rfl staged

theorem Pipelined.of_reachable {bot : Bot} (reached : machine.Reachable bot) :
    bot.Pipelined :=
  Library.Machine.reachable_preserves Pipelined pipelined_init reached
    fun _ _ _ pipelined stepped => pipelined.step stepped

theorem handled_isPrefix (ticks : List MarketTick) (feed : FeedStage) :
    feed.handled ticks <+: ticks := by
  unfold FeedStage.handled
  split
  · exact List.dropLast_prefix _
  · exact List.dropLast_prefix _
  · exact List.prefix_refl _

theorem signals_handled_isPrefix (bot : Bot) :
    signals (bot.feed.handled bot.published) <+: signals bot.published := by
  obtain ⟨rest, split⟩ := handled_isPrefix bot.published bot.feed
  have initial := signals_prefix (bot.feed.handled bot.published) rest
  rwa [split] at initial

private theorem exists_stage {count : OrderStage → Nat}
    (sum : count .placed + count .queued + count .inFlight + count .done = 1) :
    ∃ stage, ∀ other, count other = if other = stage then 1 else 0 := by
  have occupied : count .placed = 1 ∨ count .queued = 1 ∨
      count .inFlight = 1 ∨ count .done = 1 := by omega
  rcases occupied with one | one | one | one
  · exact ⟨.placed, fun other => by cases other <;> simp <;> omega⟩
  · exact ⟨.queued, fun other => by cases other <;> simp <;> omega⟩
  · exact ⟨.inFlight, fun other => by cases other <;> simp <;> omega⟩
  · exact ⟨.done, fun other => by cases other <;> simp <;> omega⟩

theorem Pipelined.once {bot : Bot} (pipelined : bot.Pipelined)
    {request : ExecutionRequest}
    (member : request ∈ requestsOf (signals (bot.feed.handled bot.published))) :
    ∃ stage, ∀ other,
      (bot.requestsIn other).countP
          (fun entry => entry.orderId = request.orderId) =
        if other = stage then 1 else 0 := by
  have total : (((bot.feed.request?.toList ++ bot.system.unexecuted) ++
      bot.system.executedRequests).map ExecutionRequest.orderId).count
        request.orderId = 1 :=
    List.count_eq_one_of_mem pipelined.staged.distinct
      (List.mem_map.mpr ⟨request, pipelined.staged.requests.mem_iff.mpr member,
        rfl⟩)
  apply exists_stage
  rw [← total]
  simp only [requestsIn, LoopStage.request?_toList, System.unexecuted,
    System.executedRequests, List.count, List.countP_map, List.countP_append,
    Function.comp_def, beq_eq_decide]
  omega

theorem Pipelined.signalOf_request {bot : Bot} (pipelined : bot.Pipelined)
    {position : Nat} {signal : Signal}
    (found : (signals (bot.feed.handled bot.published))[position]? =
      some signal) :
    bot.signalOf (signal.request position).orderId = some signal := by
  have small := (List.getElem?_eq_some_iff.mp found).1.trans_le
    pipelined.staged.few
  change (signals bot.published)[(orderIdAt position).toNat - 1000]? = _
  rw [orderIdAt_toNat small, Nat.add_sub_cancel_left]
  exact getElem?_of_isPrefix bot.signals_handled_isPrefix found

theorem Pipelined.stores {bot : Bot} (pipelined : bot.Pipelined)
    {request : ExecutionRequest}
    (member : request ∈ requestsOf (signals (bot.feed.handled bot.published)))
    {order : Order}
    (stored : bot.system.orderManager.orders[request.orderId]? = some order) :
    Stores request order := by
  have quantity := (pipelined.staged.terms member).2
  rcases List.mem_append.mp (pipelined.staged.requests.mem_iff.mpr member) with
    unexecuted | executed
  · rw [pipelined.staged.pending request unexecuted] at stored
    cases stored
    exact ⟨rfl, rfl, rfl, rfl, quantity.symm⟩
  · rw [pipelined.staged.filled request executed] at stored
    cases stored
    exact ⟨rfl, rfl, rfl, rfl, quantity.symm⟩

theorem Pipelined.settlesAt {bot : Bot} (pipelined : bot.Pipelined)
    {request : ExecutionRequest} {order : Order} {trade : Trade}
    (stores : Stores request order)
    (settles : Settles (signals (bot.feed.handled bot.published)) bot.published
      request trade) : bot.SettlesAt order trade := by
  obtain ⟨tick, executedAt, quoted, rfl⟩ := settles
  obtain ⟨position, signal, index, found, same, notOlder, quote⟩ := quoted
  refine
    { symbol := stores.symbol.symm
      side := stores.side.symm
      quantity := stores.quantity.symm
      price := ⟨signal, ?_, index, tick, notOlder, quote, ?_⟩ }
  · rw [stores.orderId, same]
    exact pipelined.signalOf_request found
  · rw [stores.side, stores.price]
    rfl

theorem Pipelined.orderLaw {bot : Bot} (pipelined : bot.Pipelined)
    {request : ExecutionRequest}
    (member : request ∈ requestsOf (signals (bot.feed.handled bot.published)))
    {order : Order}
    (stored : bot.system.orderManager.orders[request.orderId]? = some order) :
    bot.OrderLaw request.orderId order := by
  have stores := pipelined.stores member stored
  have tagged : ∀ other trade,
      Settles (signals (bot.feed.handled bot.published)) bot.published other
        trade → trade.orderId = other.orderId := by
    intro other trade settles
    obtain ⟨tick, executedAt, _, rfl⟩ := settles
    rfl
  exact
    { identified := stores.orderId
      signalled := by
        obtain ⟨position, signal, found, rfl⟩ := mem_requestsOf.mp member
        have genuine :=
          pipelined.staged.genuine signal (List.mem_of_getElem? found)
        exact ⟨signal, pipelined.signalOf_request found, genuine.tick,
          stores.symbol, stores.side, stores.price, stores.quantity⟩
      once := pipelined.once member
      pending := by
        intro unexecuted
        obtain ⟨other, waiting, same⟩ := unexecuted
        have found := pipelined.staged.pending other waiting
        rw [same, stored] at found
        cases found
        rfl
      filled := by
        intro requested
        obtain ⟨other, executed, same⟩ := requested
        have found := pipelined.staged.filled other executed
        have quantity := (pipelined.staged.terms
          (pipelined.staged.requests.mem_iff.mp
            (List.mem_append_right _ executed))).2
        rw [same, stored] at found
        cases found
        simp [OrderManager.executedOrder, orderOf, signalOrder, quantity]
      untraded := by
        intro none
        apply filter_tag_eq_nil pipelined.staged.settled tagged
        intro other settled same
        exact none ⟨other, settled, same⟩
      traded := by
        intro requested
        obtain ⟨other, settled, same⟩ := requested
        obtain ⟨trade, settles, only⟩ := filter_tag_eq_singleton
          pipelined.staged.settled tagged pipelined.staged.settled_distinct
          settled
        have otherMember := pipelined.staged.settled_placed settled
        rw [← same] at stored ⊢
        exact ⟨trade, only,
          pipelined.settlesAt (pipelined.stores otherMember stored) settles⟩ }

theorem Pipelined.exists_stored {bot : Bot} (pipelined : bot.Pipelined)
    {request : ExecutionRequest}
    (member :
      request ∈ requestsOf (signals (bot.feed.handled bot.published))) :
    ∃ order, bot.system.orderManager.orders[request.orderId]? = some order ∧
      Stores request order := by
  rcases List.mem_append.mp (pipelined.staged.requests.mem_iff.mpr member) with
    unexecuted | executed
  · have stored := pipelined.staged.pending request unexecuted
    exact ⟨_, stored, pipelined.stores member stored⟩
  · have stored := pipelined.staged.filled request executed
    exact ⟨_, stored, pipelined.stores member stored⟩

theorem Pipelined.requestsIn_placed {bot : Bot} (pipelined : bot.Pipelined)
    {stage : OrderStage} {request : ExecutionRequest}
    (member : request ∈ bot.requestsIn stage) :
    request ∈ requestsOf (signals (bot.feed.handled bot.published)) := by
  apply pipelined.staged.requests.mem_iff.mp
  simp only [System.unexecuted, System.executedRequests, List.mem_append]
  cases stage with
  | placed => exact .inl (.inl member)
  | queued => exact .inl (.inr (.inl member))
  | inFlight =>
      rw [requestsIn, LoopStage.request?_toList, List.mem_append] at member
      rcases member with unexecuted | executing
      · exact .inl (.inr (.inr unexecuted))
      · exact .inr (.inr executing)
  | done => exact .inr (.inl member)

/-- Every reachable state of the wired system has every order exactly once. -/
theorem pipeline_exactly_once {bot : Bot} (reached : machine.Reachable bot) :
    bot.PipelineLaw := by
  have pipelined := Pipelined.of_reachable reached
  refine
    { orders := ?_, signalsPlaced := ?_, requestsPlaced := ?_
      tradesPlaced := ?_ }
  · intro orderId order stored
    obtain ⟨request, member, rfl⟩ := pipelined.staged.known orderId order stored
    exact pipelined.orderLaw member stored
  · intro position signal found
    obtain ⟨order, stored, _⟩ :=
      pipelined.exists_stored (mem_requestsOf.mpr ⟨position, signal, found, rfl⟩)
    exact ⟨order, stored⟩
  · intro stage request member
    exact pipelined.exists_stored (pipelined.requestsIn_placed member)
  · intro trade member
    obtain ⟨request, settled, _, executedAt, _, rfl⟩ :=
      exists_of_forall₂ pipelined.staged.settled member
    obtain ⟨order, stored, _⟩ :=
      pipelined.exists_stored (pipelined.staged.settled_placed settled)
    exact ⟨order, stored⟩

private def roundTrip : List BotAction :=
  [.publishTick (simulatedTick 100), .onTick, .returnPublishTick,
    .publishTick (simulatedTick 101), .onTick, .placeOrder, .submitOrder,
    .takeRequest (requestFor 1000 (signalOrder "AAPL" .buy (10099 / 100)) default),
    .returnOnTick, .returnPublishTick, .getLatestTick, .simulateOrderExecution,
    .simulateTrade default]

/-- The one signal of the run ends as a filled order with one trade of 100 at
the bid of its tick. -/
theorem pipeline_exactly_once_roundTrip :
    ∃ bot, machine.run init roundTrip = some bot ∧ bot.PipelineLaw ∧
      (∃ order ∈ bot.system.orderManager.orders[(1000 : UInt64)]?,
        order.status = .filled ∧ order.filledQuantity = 100) ∧
      (bot.system.orderManager.tradesOf 1000).map Trade.price = [10099 / 100] := by
  have ends : (machine.run init roundTrip).any (fun bot =>
      bot.system.orderManager.orders[(1000 : UInt64)]?.any (fun order =>
          order.status = .filled ∧ order.filledQuantity = 100) ∧
        (bot.system.orderManager.tradesOf 1000).map Trade.price =
          [10099 / 100]) := by
    decide +kernel
  obtain ⟨bot, ran, outcome⟩ := Option.any_eq_true _ _ |>.mp ends
  obtain ⟨stored, traded⟩ := of_decide_eq_true outcome
  obtain ⟨order, found, filled⟩ := Option.any_eq_true _ _ |>.mp stored
  exact ⟨bot, ran, pipeline_exactly_once ⟨roundTrip, ran⟩,
    ⟨order, found, of_decide_eq_true filled⟩, traded⟩

end Bot

end TradingBot
