import TradingBot.MarketData.Feed

namespace TradingBot

open Library

/-! The bounded histories against everything published since the first
`subscribe`. -/

theorem maxHistorySize_pos : 0 < maxHistorySize := by
  decide

theorem pushBounded_rtake (log : List α) (entry : α) :
    pushBounded (log.rtake maxHistorySize) entry =
      (log ++ [entry]).rtake maxHistorySize := by
  rw [pushBounded, rtake_concat]

theorem elim_pushBounded (log : List α) (entry : Option α) :
    entry.elim (log.rtake maxHistorySize)
        (pushBounded (log.rtake maxHistorySize)) =
      (log ++ entry.toList).rtake maxHistorySize := by
  cases entry with
  | none => rw [Option.elim_none, Option.toList_none, List.append_nil]
  | some entry =>
      rw [Option.elim_some, pushBounded_rtake, Option.toList_some]

/-- The stored histories of a symbol are the ends of its logs; it has no entry
before its first `subscribe`. -/
def Records (events : List MarketEvent) (symbol : String) :
    Option SymbolData → Prop
  | none => sinceSubscribed events symbol = []
  | some data =>
      sinceSubscribed events symbol ≠ [] ∧
        data.tickHistory = (ticksOf events symbol).rtake maxHistorySize ∧
        data.orderBookHistory = (booksOf events symbol).rtake maxHistorySize

theorem Records.advance {events : List MarketEvent} {symbol : String}
    {data : SymbolData} (records : Records events symbol (some data))
    (expired : ListenerId → Bool) (event : MarketEvent) :
    Records (events ++ [event]) symbol
      (some (event.advance expired symbol data)) := by
  obtain ⟨subscribed, ticks, books⟩ := records
  refine ⟨?_, ?_, ?_⟩
  · rw [sinceSubscribed_concat, if_neg subscribed]
    exact List.concat_ne_nil _ _
  · rw [event.advance_tickHistory, ticks, elim_pushBounded, ticksOf_concat,
      if_neg subscribed]
  · rw [event.advance_orderBookHistory, books, elim_pushBounded,
      booksOf_concat, if_neg subscribed]

theorem Records.subscribe {events : List MarketEvent} {symbol : String}
    (unsubscribed : Records events symbol none) {expired : ListenerId → Bool}
    {event : MarketEvent} (subscribes : event.subscribes symbol = true) :
    Records (events ++ [event]) symbol
      (some (event.advance expired symbol default)) := by
  have absent : sinceSubscribed events symbol = [] := unsubscribed
  refine ⟨?_, ?_, ?_⟩
  · rw [sinceSubscribed_concat, if_pos absent, if_pos subscribes]
    exact List.cons_ne_nil _ _
  · rw [event.advance_tickHistory, event.tick?_of_subscribes subscribes,
      ticksOf_concat, if_pos absent]
    rfl
  · rw [event.advance_orderBookHistory,
      event.orderBook?_of_subscribes subscribes, booksOf_concat, if_pos absent]
    rfl

theorem Market.records (events : List MarketEvent) (symbol : String) :
    Records events symbol ((Market.after events).data symbol) := by
  induction events using List.reverseRecOn with
  | nil => exact rfl
  | append_singleton events event induction =>
      rw [Market.after_concat, Market.data_apply]
      cases held : (Market.after events).data symbol with
      | none =>
          rw [held] at induction
          split
          next subscribes => exact induction.subscribe subscribes
          next silent =>
              have absent : sinceSubscribed events symbol = [] := induction
              rw [Option.map_none, Records, sinceSubscribed_concat,
                if_pos absent, if_neg silent]
      | some data =>
          rw [held] at induction
          have advanced := induction.advance (Market.after events).expired event
          split
          next => exact advanced
          next => exact advanced

theorem ticksOf_of_absent {events : List MarketEvent} {symbol : String}
    (absent : sinceSubscribed events symbol = []) : ticksOf events symbol = [] := by
  rw [ticksOf, absent, List.filterMap_nil]

theorem booksOf_of_absent {events : List MarketEvent} {symbol : String}
    (absent : sinceSubscribed events symbol = []) : booksOf events symbol = [] := by
  rw [booksOf, absent, List.filterMap_nil]

theorem Records.tickHistory {events : List MarketEvent} {symbol : String}
    {stored : Option SymbolData} (records : Records events symbol stored) :
    stored.elim [] SymbolData.tickHistory =
      (ticksOf events symbol).rtake maxHistorySize := by
  cases stored with
  | none => rw [Option.elim_none, ticksOf_of_absent records, List.rtake_nil]
  | some data => rw [Option.elim_some, records.2.1]

theorem Records.orderBookHistory {events : List MarketEvent} {symbol : String}
    {stored : Option SymbolData} (records : Records events symbol stored) :
    stored.elim [] SymbolData.orderBookHistory =
      (booksOf events symbol).rtake maxHistorySize := by
  cases stored with
  | none => rw [Option.elim_none, booksOf_of_absent records, List.rtake_nil]
  | some data => rw [Option.elim_some, records.2.2]

theorem getTickHistory_eq (handler : MarketDataHandler) (symbol : String)
    (limit : Nat) :
    handler.getTickHistory symbol limit =
      ((handler.symbolDataMap[symbol]?).elim []
        SymbolData.tickHistory).rtake limit := by
  cases found : handler.symbolDataMap[symbol]? with
  | none =>
      rw [MarketDataHandler.getTickHistory, found, Option.elim_none,
        List.rtake_nil]
  | some data =>
      have start : (if limit < data.tickHistory.length then
          data.tickHistory.length - limit else 0) =
            data.tickHistory.length - limit := by
        split <;> omega
      rw [MarketDataHandler.getTickHistory, found, Option.elim_some,
        List.rtake, ← start]

theorem getLatestTick_after (events : List MarketEvent) (symbol : String) :
    (Market.after events).handler.getLatestTick symbol =
      (ticksOf events symbol).getLast?.getD default := by
  have stored := (Market.records events symbol).tickHistory
  rw [Market.data] at stored
  rw [MarketDataHandler.getLatestTick_eq, stored,
    getLast?_rtake _ maxHistorySize_pos]

theorem getLatestOrderBook_after (events : List MarketEvent)
    (symbol : String) :
    (Market.after events).handler.getLatestOrderBook symbol =
      (booksOf events symbol).getLast?.getD default := by
  have stored := (Market.records events symbol).orderBookHistory
  rw [Market.data] at stored
  rw [MarketDataHandler.getLatestOrderBook_eq, stored,
    getLast?_rtake _ maxHistorySize_pos]

theorem getTickHistory_after (events : List MarketEvent) (symbol : String)
    (limit : Nat) :
    (Market.after events).handler.getTickHistory symbol limit =
      (ticksOf events symbol).rtake (min limit maxHistorySize) := by
  have stored := (Market.records events symbol).tickHistory
  rw [Market.data] at stored
  rw [getTickHistory_eq, stored, rtake_rtake]

/-- Every query answers from the end of what was published since the first
`subscribe`, and no history outgrows its bound. -/
theorem history_refines_log (events : List MarketEvent) (symbol : String) :
    (∀ limit,
        (Market.after events).handler.getTickHistory symbol limit =
          (ticksOf events symbol).rtake
            (min limit (min (ticksOf events symbol).length maxHistorySize))) ∧
      (Market.after events).handler.getLatestTick symbol =
        (ticksOf events symbol).getLast?.getD default ∧
      (Market.after events).handler.getLatestOrderBook symbol =
        (booksOf events symbol).getLast?.getD default ∧
      ∀ data ∈ (Market.after events).handler.symbolDataMap[symbol]?,
        data.tickHistory.length ≤ maxHistorySize ∧
          data.orderBookHistory.length ≤ maxHistorySize := by
  refine ⟨fun limit => ?_, getLatestTick_after events symbol,
    getLatestOrderBook_after events symbol, ?_⟩
  · rw [getTickHistory_after, Nat.min_comm (ticksOf events symbol).length,
      ← Nat.min_assoc, rtake_min_length]
  · intro data found
    have records := Market.records events symbol
    rw [Market.data, Option.mem_def.mp found] at records
    rw [records.2.1, records.2.2, length_rtake, length_rtake]
    exact ⟨Nat.min_le_left _ _, Nat.min_le_left _ _⟩

end TradingBot
