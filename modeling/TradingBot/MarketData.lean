import TradingBot.Data
import TradingBot.Library.OrderedMap

namespace TradingBot

/-! `market_data.cpp`: the per-symbol histories and their subscribers.  Every
member function holds `dataMutex` throughout. -/

/-- The identity of a listener object, as a `weak_ptr` keeps it. -/
abbrev ListenerId := Nat

structure SymbolData where
  tickHistory : List MarketTick
  orderBookHistory : List OrderBook
  listeners : List ListenerId

instance : Inhabited SymbolData :=
  ⟨{ tickHistory := [], orderBookHistory := [], listeners := [] }⟩

structure MarketDataHandler where
  symbolDataMap : Std.ExtTreeMap String SymbolData

def maxHistorySize : Nat := 10000

/-- `push_back`, then `pop_front` once the deque is over `MAX_HISTORY_SIZE`. -/
def pushBounded (history : List α) (entry : α) : List α :=
  let pushed := history ++ [entry]
  if maxHistorySize < pushed.length then pushed.tail else pushed

theorem getLast?_pushBounded (history : List α) (entry : α) :
    (pushBounded history entry).getLast? = some entry := by
  unfold pushBounded
  cases history with
  | nil => simp [maxHistorySize]
  | cons head tail =>
      dsimp only
      split
      · simp
      · exact List.getLast?_concat

namespace MarketDataHandler

def init : MarketDataHandler where
  symbolDataMap := ∅

def subscribe (handler : MarketDataHandler) (symbol : String)
    (listener : ListenerId) : MarketDataHandler :=
  let data := (handler.symbolDataMap[symbol]?).getD default
  { symbolDataMap :=
      handler.symbolDataMap.insert symbol
        { data with listeners := data.listeners ++ [listener] } }

/-- `l.expired() || l.lock() == listener` names what is erased. -/
def unsubscribe (handler : MarketDataHandler) (expired : ListenerId → Bool)
    (symbol : String) (listener : ListenerId) : MarketDataHandler :=
  match handler.symbolDataMap[symbol]? with
  | none => handler
  | some data =>
      { symbolDataMap :=
          handler.symbolDataMap.insert symbol
            { data with
              listeners := data.listeners.filter fun other =>
                !(expired other || other == listener) } }

/-- The new handler, and the listeners whose `onTick` the call runs, in order.
`expired` tells which listener objects are gone. -/
def publishTick (handler : MarketDataHandler) (expired : ListenerId → Bool)
    (tick : MarketTick) : MarketDataHandler × List ListenerId :=
  match handler.symbolDataMap[tick.symbol]? with
  | none => (handler, [])
  | some data =>
      ({ symbolDataMap :=
          handler.symbolDataMap.insert tick.symbol
            { data with tickHistory := pushBounded data.tickHistory tick } },
        data.listeners.filter fun listener => !expired listener)

def publishOrderBook (handler : MarketDataHandler)
    (expired : ListenerId → Bool) (book : OrderBook) :
    MarketDataHandler × List ListenerId :=
  match handler.symbolDataMap[book.symbol]? with
  | none => (handler, [])
  | some data =>
      ({ symbolDataMap :=
          handler.symbolDataMap.insert book.symbol
            { data with
              orderBookHistory := pushBounded data.orderBookHistory book } },
        data.listeners.filter fun listener => !expired listener)

def getLatestTick (handler : MarketDataHandler) (symbol : String) :
    MarketTick :=
  match handler.symbolDataMap[symbol]? with
  | none => default
  | some data => data.tickHistory.getLast?.getD default

def getLatestOrderBook (handler : MarketDataHandler) (symbol : String) :
    OrderBook :=
  match handler.symbolDataMap[symbol]? with
  | none => default
  | some data => data.orderBookHistory.getLast?.getD default

def getTickHistory (handler : MarketDataHandler) (symbol : String)
    (limit : Nat) : List MarketTick :=
  match handler.symbolDataMap[symbol]? with
  | none => []
  | some data =>
      let size := data.tickHistory.length
      let start := if limit < size then size - limit else 0
      data.tickHistory.drop start

variable (handler : MarketDataHandler) (expired : ListenerId → Bool)

theorem subscribe_data (symbol key : String) (listener : ListenerId) :
    (handler.subscribe symbol listener).symbolDataMap[key]? =
      if key = symbol then
        some { (handler.symbolDataMap[key]?).getD default with
          listeners :=
            ((handler.symbolDataMap[key]?).getD default).listeners ++ [listener] }
      else handler.symbolDataMap[key]? := by
  unfold subscribe
  rw [Library.getElem?_insert_eq_ite]
  split
  next same => rw [same]
  next => rfl

theorem unsubscribe_data (symbol key : String) (listener : ListenerId) :
    (handler.unsubscribe expired symbol listener).symbolDataMap[key]? =
      (handler.symbolDataMap[key]?).map fun data =>
        if key = symbol then
          { data with
            listeners := data.listeners.filter fun other =>
              !(expired other || other == listener) }
        else data := by
  refine Library.getElem?_of_changed (fun absent => ?_)
    (fun data found => ?_) key
  · rw [unsubscribe, absent]
  · rw [unsubscribe, found]

theorem publishTick_data (tick : MarketTick) (key : String) :
    (handler.publishTick expired tick).1.symbolDataMap[key]? =
      (handler.symbolDataMap[key]?).map fun data =>
        if key = tick.symbol then
          { data with tickHistory := pushBounded data.tickHistory tick }
        else data := by
  refine Library.getElem?_of_changed (fun absent => ?_)
    (fun data found => ?_) key
  · rw [publishTick, absent]
  · rw [publishTick, found]

theorem publishOrderBook_data (book : OrderBook) (key : String) :
    (handler.publishOrderBook expired book).1.symbolDataMap[key]? =
      (handler.symbolDataMap[key]?).map fun data =>
        if key = book.symbol then
          { data with
            orderBookHistory := pushBounded data.orderBookHistory book }
        else data := by
  refine Library.getElem?_of_changed (fun absent => ?_)
    (fun data found => ?_) key
  · rw [publishOrderBook, absent]
  · rw [publishOrderBook, found]

def subscribers (symbol : String) : Option (List ListenerId) :=
  (handler.symbolDataMap[symbol]?).map SymbolData.listeners

theorem publishTick_delivers {tick : MarketTick} {listeners : List ListenerId}
    (subscribed : handler.subscribers tick.symbol = some listeners) :
    (handler.publishTick expired tick).2 =
      listeners.filter fun listener => !expired listener := by
  obtain ⟨data, found, rfl⟩ := Option.map_eq_some_iff.mp subscribed
  simp [publishTick, found]

theorem subscribers_publishTick (tick : MarketTick) (symbol : String) :
    (handler.publishTick expired tick).1.subscribers symbol =
      handler.subscribers symbol := by
  rw [subscribers, publishTick_data, Option.map_map, subscribers]
  refine Option.map_congr fun data _ => ?_
  dsimp only [Function.comp_apply]
  split <;> rfl

theorem subscribers_publishOrderBook (book : OrderBook) (symbol : String) :
    (handler.publishOrderBook expired book).1.subscribers symbol =
      handler.subscribers symbol := by
  rw [subscribers, publishOrderBook_data, Option.map_map, subscribers]
  refine Option.map_congr fun data _ => ?_
  dsimp only [Function.comp_apply]
  split <;> rfl

theorem getLatestTick_eq (symbol : String) :
    handler.getLatestTick symbol =
      ((handler.symbolDataMap[symbol]?).elim []
        SymbolData.tickHistory).getLast?.getD default := by
  unfold getLatestTick
  split
  next absent =>
      rw [absent]
      rfl
  next data found =>
      rw [found]
      rfl

theorem getLatestOrderBook_eq (symbol : String) :
    handler.getLatestOrderBook symbol =
      ((handler.symbolDataMap[symbol]?).elim []
        SymbolData.orderBookHistory).getLast?.getD default := by
  unfold getLatestOrderBook
  split
  next absent =>
      rw [absent]
      rfl
  next data found =>
      rw [found]
      rfl

theorem getLatestTick_publishTick {tick : MarketTick}
    {listeners : List ListenerId}
    (subscribed : handler.subscribers tick.symbol = some listeners) :
    (handler.publishTick expired tick).1.getLatestTick tick.symbol = tick := by
  obtain ⟨data, found, rfl⟩ := Option.map_eq_some_iff.mp subscribed
  rw [getLatestTick_eq, publishTick_data, found, Option.map_some, if_pos rfl,
    Option.elim_some, getLast?_pushBounded, Option.getD_some]

theorem getLatestTick_publishOrderBook (book : OrderBook) (symbol : String) :
    (handler.publishOrderBook expired book).1.getLatestTick symbol =
      handler.getLatestTick symbol := by
  rw [getLatestTick_eq, getLatestTick_eq, publishOrderBook_data]
  cases handler.symbolDataMap[symbol]? with
  | none => rfl
  | some data =>
      rw [Option.map_some]
      split <;> rfl

end MarketDataHandler

end TradingBot
