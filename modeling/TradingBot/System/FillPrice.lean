import TradingBot.System.Dispatch
import TradingBot.MarketData.History

namespace TradingBot

open Library

/-! Where the price of a fill comes from. -/

/-- The tick last published for a symbol, whether or not it was stored. -/
def lastPublished (events : List MarketEvent) (symbol : String) :
    Option MarketTick :=
  (events.filterMap fun event => event.tick? symbol).getLast?

/-- The price is the request's or that of a real quote, within the request's
limit. -/
structure SoundFill (events : List MarketEvent) (request : ExecutionRequest)
    (trade : Trade) : Prop where
  positive : 0 < trade.price
  sourced : trade.price = request.price ∨
    ∃ tick ∈ lastPublished events request.symbol,
      trade.price = tick.quote request.side
  within : request.side.Allows request.price trade.price
  totalCost : trade.totalCost = trade.price * trade.quantity.toNat

theorem ticksOf_suffix (events : List MarketEvent) (symbol : String) :
    ticksOf events symbol <:+
      events.filterMap fun event => event.tick? symbol :=
  (List.dropWhile_suffix _).filterMap _

/-- Once a tick of a symbol is stored, the last stored one is the last
published one. -/
theorem lastPublished_eq {events : List MarketEvent} {symbol : String}
    (stored : ticksOf events symbol ≠ []) :
    lastPublished events symbol = (ticksOf events symbol).getLast? := by
  obtain ⟨dropped, split⟩ := ticksOf_suffix events symbol
  rw [lastPublished, ← split, List.getLast?_append_of_ne_nil _ stored]

theorem published_of_mem_ticksOf {events : List MarketEvent}
    {symbol : String} {tick : MarketTick}
    (member : tick ∈ ticksOf events symbol) :
    MarketEvent.publishTick tick ∈ events := by
  obtain ⟨event, listed, published⟩ :=
    List.mem_filterMap.mp ((ticksOf_suffix events symbol).subset member)
  cases event with
  | publishTick other =>
      simp only [MarketEvent.tick?, Option.ite_none_right_eq_some,
        Option.some.injEq] at published
      rw [← published.2]
      exact listed
  | _ => cases published

theorem executionPrice_eq (request : ExecutionRequest)
    (latestTick : MarketTick) :
    executionPrice request latestTick = request.price ∨
      executionPrice request latestTick = latestTick.quote request.side := by
  unfold executionPrice
  cases request.side with
  | buy => exact min_choice _ _
  | sell => exact max_choice _ _

theorem allows_own_limit (request : ExecutionRequest)
    (latestTick : MarketTick) :
    request.side.Allows request.price (executionPrice request latestTick) := by
  rw [allows_executionPrice]
  left
  cases request.side with
  | buy => exact le_refl _
  | sell => exact le_refl _

section Quoted

variable {events : List MarketEvent} {request : ExecutionRequest}
  {executedAt : Timestamp}

/-- With a stored tick the fill is at the limit or at a real quote. -/
theorem soundFill_of_stored (price : 0 < request.price) {tick : MarketTick}
    (bid : 0 < tick.bid) (ask : 0 < tick.ask)
    (last : (ticksOf events request.symbol).getLast? = some tick) :
    SoundFill events request (executedTrade request tick executedAt) where
  positive := by
    rw [executedTrade]
    rcases executionPrice_eq request tick with own | quoted
    · rw [own]
      exact price
    · rw [quoted]
      cases request.side with
      | buy => exact ask
      | sell => exact bid
  sourced := by
    have stored : ticksOf events request.symbol ≠ [] := by
      intro empty
      rw [empty] at last
      cases last
    refine (executionPrice_eq request tick).imp_right fun quoted => ?_
    exact ⟨tick, (lastPublished_eq stored).trans last, quoted⟩
  within := allows_own_limit request tick
  totalCost := rfl

/-- The zero-initialised tick never wins against the limit of a sell. -/
theorem soundFill_unquoted_sell (price : 0 < request.price)
    (sell : request.side = .sell) :
    SoundFill events request (executedTrade request default executedAt) := by
  have own : executionPrice request default = request.price := by
    rw [executionPrice, sell]
    exact max_eq_left price.le
  exact
    { positive := by
        rw [executedTrade, own]
        exact price
      sourced := .inl own
      within := allows_own_limit request default
      totalCost := rfl }

/-- It always wins against the limit of a buy. -/
theorem unquoted_buy_price (price : 0 < request.price)
    (buy : request.side = .buy) : executionPrice request default = 0 := by
  rw [executionPrice, buy]
  exact min_eq_right price.le

end Quoted

namespace System

theorem trades_executeOrder (system : System) {dispatch : Dispatch}
    (positive : 0 < dispatch.request.quantity) :
    (system.executeOrder dispatch).orderManager.trades =
      system.orderManager.trades ++
        [executedTrade dispatch.request
          (system.marketData.getLatestTick dispatch.request.symbol)
          dispatch.executedAt] := by
  simp only [executeOrder, positive, if_true, finishRequest,
    OrderManager.simulateTrade_trades,
    OrderManager.simulateOrderExecution_trades]

/-- The fill is sound exactly if the request is a sell or its symbol has a
stored tick. -/
theorem soundFill_iff {events : List MarketEvent}
    (quotes : ∀ tick, MarketEvent.publishTick tick ∈ events →
      0 < tick.bid ∧ 0 < tick.ask)
    {dispatch : Dispatch} (price : 0 < dispatch.request.price)
    (quantity : 0 < dispatch.request.quantity) {system : System}
    (current : system.marketData = (Market.after events).handler) :
    (∃ trade,
        (system.executeOrder dispatch).orderManager.trades =
            system.orderManager.trades ++ [trade] ∧
          SoundFill events dispatch.request trade) ↔
      dispatch.request.side = .sell ∨
        ticksOf events dispatch.request.symbol ≠ [] := by
  rw [trades_executeOrder system quantity, current, getLatestTick_after]
  simp only [List.append_cancel_left_eq, List.cons.injEq, and_true,
    exists_eq_left']
  cases last : (ticksOf events dispatch.request.symbol).getLast? with
  | some tick =>
      have member := List.mem_of_getLast? last
      obtain ⟨bid, ask⟩ := quotes tick (published_of_mem_ticksOf member)
      constructor
      · intro _
        exact .inr (List.ne_nil_of_mem member)
      · intro _
        exact soundFill_of_stored price bid ask last
  | none =>
      have empty := List.getLast?_eq_none_iff.mp last
      constructor
      · intro sound
        left
        cases side : dispatch.request.side with
        | sell => rfl
        | buy =>
            have positive : 0 < executionPrice dispatch.request default :=
              sound.positive
            rw [unquoted_buy_price price side] at positive
            exact absurd positive (lt_irrefl 0)
      · intro sellOrStored
        rcases sellOrStored with sell | stored
        · exact soundFill_unquoted_sell price sell
        · exact absurd empty stored

private def marketBuy : Dispatch where
  request :=
    { orderId := 1000, symbol := "AAPL", side := .buy, price := 100,
      quantity := 100, priority := .high, timestamp := default }
  executedAt := default
  latency := 1

private def quotedFeed : List MarketEvent :=
  [.subscribe "AAPL" 0,
    .publishTick { (default : MarketTick) with
      symbol := "AAPL", bid := 98, ask := 99 }]

theorem soundFill_iff_quotedFeed :
    (∃ trade,
        ((init (Market.after quotedFeed).handler).executeOrder
            marketBuy).orderManager.trades =
            (init (Market.after quotedFeed).handler).orderManager.trades ++
              [trade] ∧
          SoundFill quotedFeed marketBuy.request trade) ↔
      marketBuy.request.side = .sell ∨
        ticksOf quotedFeed marketBuy.request.symbol ≠ [] :=
  soundFill_iff
    (fun tick published => by
      simp only [quotedFeed, List.mem_cons, reduceCtorEq,
        MarketEvent.publishTick.injEq, List.not_mem_nil, or_false,
        false_or] at published
      subst published
      decide)
    (by decide) (by decide) rfl

/-- Subscribed, but nothing published yet: the buy fills at a price of 0. -/
theorem unquoted_buy_fills_at_zero :
    ¬ ∃ trade,
        ((init (Market.after [.subscribe "AAPL" 0]).handler).executeOrder
            marketBuy).orderManager.trades =
            (init (Market.after
              [.subscribe "AAPL" 0]).handler).orderManager.trades ++ [trade] ∧
          SoundFill [.subscribe "AAPL" 0] marketBuy.request trade := by
  intro claimed
  obtain ⟨trade, appended, sound⟩ := claimed
  rw [trades_executeOrder _ (by decide)] at appended
  have quote : (init (Market.after
      [.subscribe "AAPL" 0]).handler).marketData.getLatestTick
        marketBuy.request.symbol = default :=
    getLatestTick_after [.subscribe "AAPL" 0] "AAPL"
  rw [quote] at appended
  cases List.append_cancel_left appended
  have positive : 0 < executionPrice marketBuy.request default := sound.positive
  rw [unquoted_buy_price (by decide) rfl] at positive
  exact absurd positive (lt_irrefl 0)

end System

end TradingBot
