import TradingBot.MarketData
import TradingBot.Library.Trace

namespace TradingBot

/-! Sequences of calls of one `MarketDataHandler`, the listener objects that
are destroyed between the calls, and what the others are called with. -/

inductive MarketEvent where
  | subscribe (symbol : String) (listener : ListenerId)
  | unsubscribe (symbol : String) (listener : ListenerId)
  | publishTick (tick : MarketTick)
  | publishOrderBook (book : OrderBook)
  | destroy (listener : ListenerId)
  deriving DecidableEq

inductive Notice where
  | onTick (tick : MarketTick)
  | onOrderBook (book : OrderBook)
  deriving DecidableEq

namespace Notice

def tick? : Notice → Option MarketTick
  | .onTick tick => some tick
  | .onOrderBook _ => none

def orderBook? : Notice → Option OrderBook
  | .onTick _ => none
  | .onOrderBook book => some book

end Notice

/-- `notices` is a history variable: the listener calls made so far. -/
structure Market where
  handler : MarketDataHandler
  destroyed : List ListenerId
  notices : List (ListenerId × Notice)

namespace Market

def init : Market where
  handler := MarketDataHandler.init
  destroyed := []
  notices := []

def expired (market : Market) (listener : ListenerId) : Bool :=
  decide (listener ∈ market.destroyed)

def notify (market : Market) (notice : Notice)
    (published : MarketDataHandler × List ListenerId) : Market :=
  { market with
    handler := published.1
    notices :=
      market.notices ++ published.2.map fun listener => (listener, notice) }

def apply (market : Market) : MarketEvent → Market
  | .subscribe symbol listener =>
      { market with handler := market.handler.subscribe symbol listener }
  | .unsubscribe symbol listener =>
      { market with
        handler := market.handler.unsubscribe market.expired symbol listener }
  | .publishTick tick =>
      market.notify (.onTick tick)
        (market.handler.publishTick market.expired tick)
  | .publishOrderBook book =>
      market.notify (.onOrderBook book)
        (market.handler.publishOrderBook market.expired book)
  | .destroy listener =>
      { market with destroyed := listener :: market.destroyed }

def after (events : List MarketEvent) : Market :=
  events.foldl apply init

def noticesTo (market : Market) (listener : ListenerId) : List Notice :=
  market.notices.filterMap fun entry =>
    if entry.1 = listener then some entry.2 else none

end Market

namespace MarketEvent

def subscribes (symbol : String) : MarketEvent → Bool
  | .subscribe other _ => decide (other = symbol)
  | _ => false

def tick? (symbol : String) : MarketEvent → Option MarketTick
  | .publishTick tick => if tick.symbol = symbol then some tick else none
  | _ => none

def orderBook? (symbol : String) : MarketEvent → Option OrderBook
  | .publishOrderBook book => if book.symbol = symbol then some book else none
  | _ => none

/-- What the event does to the data of a symbol that has some. -/
def advance (expired : ListenerId → Bool) (symbol : String)
    (data : SymbolData) : MarketEvent → SymbolData
  | .subscribe other listener =>
      if symbol = other then
        { data with listeners := data.listeners ++ [listener] }
      else data
  | .unsubscribe other listener =>
      if symbol = other then
        { data with
          listeners := data.listeners.filter fun other =>
            !(expired other || other == listener) }
      else data
  | .publishTick tick =>
      if symbol = tick.symbol then
        { data with tickHistory := pushBounded data.tickHistory tick }
      else data
  | .publishOrderBook book =>
      if symbol = book.symbol then
        { data with
          orderBookHistory := pushBounded data.orderBookHistory book }
      else data
  | .destroy _ => data

theorem tick?_of_subscribes {event : MarketEvent} {symbol other : String}
    (subscribes : event.subscribes symbol = true) : event.tick? other = none := by
  cases event with
  | publishTick tick => cases subscribes
  | _ => rfl

theorem orderBook?_of_subscribes {event : MarketEvent} {symbol other : String}
    (subscribes : event.subscribes symbol = true) :
    event.orderBook? other = none := by
  cases event with
  | publishOrderBook book => cases subscribes
  | _ => rfl

variable (expired : ListenerId → Bool) (symbol : String) (data : SymbolData)

theorem advance_tickHistory (event : MarketEvent) :
    (event.advance expired symbol data).tickHistory =
      (event.tick? symbol).elim data.tickHistory
        (pushBounded data.tickHistory) := by
  cases event with
  | publishTick tick =>
      simp only [advance, tick?, eq_comm (a := symbol)]
      split <;> rfl
  | destroy listener => rfl
  | _ =>
      simp only [advance]
      split <;> rfl

theorem advance_orderBookHistory (event : MarketEvent) :
    (event.advance expired symbol data).orderBookHistory =
      (event.orderBook? symbol).elim data.orderBookHistory
        (pushBounded data.orderBookHistory) := by
  cases event with
  | publishOrderBook book =>
      simp only [advance, orderBook?, eq_comm (a := symbol)]
      split <;> rfl
  | destroy listener => rfl
  | _ =>
      simp only [advance]
      split <;> rfl

end MarketEvent

/-- The events on a symbol count from its first `subscribe` on, which makes its
entry in the map. -/
def sinceSubscribed (events : List MarketEvent) (symbol : String) :
    List MarketEvent :=
  events.dropWhile fun event => !event.subscribes symbol

def ticksOf (events : List MarketEvent) (symbol : String) : List MarketTick :=
  (sinceSubscribed events symbol).filterMap fun event => event.tick? symbol

def booksOf (events : List MarketEvent) (symbol : String) : List OrderBook :=
  (sinceSubscribed events symbol).filterMap fun event => event.orderBook? symbol

theorem sinceSubscribed_concat (events : List MarketEvent)
    (event : MarketEvent) (symbol : String) :
    sinceSubscribed (events ++ [event]) symbol =
      if sinceSubscribed events symbol = [] then
        if event.subscribes symbol then [event] else []
      else sinceSubscribed events symbol ++ [event] := by
  unfold sinceSubscribed
  rw [List.dropWhile_append]
  simp only [List.isEmpty_iff]
  split
  next => cases subscribes : event.subscribes symbol <;> simp [subscribes]
  next => rfl

theorem filterMap_sinceSubscribed_concat {μ : Type}
    {message? : MarketEvent → Option μ} {symbol : String}
    (silent : ∀ event, event.subscribes symbol → message? event = none)
    (events : List MarketEvent) (event : MarketEvent) :
    (sinceSubscribed (events ++ [event]) symbol).filterMap message? =
      if sinceSubscribed events symbol = [] then []
      else
        (sinceSubscribed events symbol).filterMap message? ++
          (message? event).toList := by
  rw [sinceSubscribed_concat]
  split
  next =>
      split
      next subscribes => simp [silent event subscribes]
      next => rfl
  next => exact Library.filterMap_concat message? _ event

theorem ticksOf_concat (events : List MarketEvent) (event : MarketEvent)
    (symbol : String) :
    ticksOf (events ++ [event]) symbol =
      if sinceSubscribed events symbol = [] then []
      else ticksOf events symbol ++ (event.tick? symbol).toList :=
  filterMap_sinceSubscribed_concat
    (fun _ subscribes => MarketEvent.tick?_of_subscribes subscribes) events event

theorem booksOf_concat (events : List MarketEvent) (event : MarketEvent)
    (symbol : String) :
    booksOf (events ++ [event]) symbol =
      if sinceSubscribed events symbol = [] then []
      else booksOf events symbol ++ (event.orderBook? symbol).toList :=
  filterMap_sinceSubscribed_concat
    (fun _ subscribes => MarketEvent.orderBook?_of_subscribes subscribes)
    events event

namespace Market

def data (market : Market) (symbol : String) : Option SymbolData :=
  market.handler.symbolDataMap[symbol]?

theorem after_concat (events : List MarketEvent) (event : MarketEvent) :
    after (events ++ [event]) = (after events).apply event := by
  simp [after]

/-- What one event does to the data of one symbol. -/
theorem data_apply (market : Market) (event : MarketEvent) (symbol : String) :
    (market.apply event).data symbol =
      if event.subscribes symbol then
        some (event.advance market.expired symbol
          ((market.data symbol).getD default))
      else
        (market.data symbol).map fun data =>
          event.advance market.expired symbol data := by
  cases event with
  | subscribe other listener =>
      rw [data, apply, MarketDataHandler.subscribe_data]
      rcases eq_or_ne symbol other with rfl | differ
      · simp [MarketEvent.subscribes, MarketEvent.advance, data]
      · simp [MarketEvent.subscribes, MarketEvent.advance, data, differ,
          differ.symm]
  | unsubscribe other listener =>
      exact market.handler.unsubscribe_data market.expired other symbol listener
  | publishTick tick =>
      exact market.handler.publishTick_data market.expired tick symbol
  | publishOrderBook book =>
      exact market.handler.publishOrderBook_data market.expired book symbol
  | destroy listener => exact Option.map_id'.symm

end Market

end TradingBot
