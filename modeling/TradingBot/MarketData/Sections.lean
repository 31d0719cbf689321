import TradingBot.MarketData
import TradingBot.Library.LockedObject

namespace TradingBot

open Library

/-! `market_data.cpp` statement by statement: what each member function does
under `dataMutex`, an access of the map at a time. -/

/-- What `publishTick` and `publishOrderBook` are given. -/
inductive Publication where
  | tick (tick : MarketTick)
  | orderBook (book : OrderBook)

namespace Publication

def symbol : Publication → String
  | .tick entry => entry.symbol
  | .orderBook entry => entry.symbol

/-- `push_back` on the history of its kind. -/
def pushBack (data : SymbolData) : Publication → SymbolData
  | .tick entry => { data with tickHistory := data.tickHistory ++ [entry] }
  | .orderBook entry =>
      { data with orderBookHistory := data.orderBookHistory ++ [entry] }

def size (data : SymbolData) : Publication → Nat
  | .tick _ => data.tickHistory.length
  | .orderBook _ => data.orderBookHistory.length

def popFront (data : SymbolData) : Publication → SymbolData
  | .tick _ => { data with tickHistory := data.tickHistory.tail }
  | .orderBook _ => { data with orderBookHistory := data.orderBookHistory.tail }

end Publication

/-- The member functions.  `expired` tells which `lock()` of a `weak_ptr` finds
its object gone. -/
inductive MarketOperation where
  | subscribe (symbol : String) (listener : ListenerId)
  | unsubscribe (expired : ListenerId → Bool) (symbol : String)
      (listener : ListenerId)
  | publish (expired : ListenerId → Bool) (publication : Publication)
  | getLatestTick (symbol : String)
  | getLatestOrderBook (symbol : String)
  | getTickHistory (symbol : String) (limit : Nat)

/-- What a call gives its caller; for `publish`, the listeners it has called. -/
inductive MarketAnswer where
  | done
  | notified (called : List ListenerId)
  | tick (tick : MarketTick)
  | orderBook (book : OrderBook)
  | ticks (history : List MarketTick)

/-- The member functions made one at a time. -/
def MarketDataHandler.answer (handler : MarketDataHandler) :
    MarketOperation → MarketDataHandler × MarketAnswer
  | .subscribe symbol listener => (handler.subscribe symbol listener, .done)
  | .unsubscribe expired symbol listener =>
      (handler.unsubscribe expired symbol listener, .done)
  | .publish expired (.tick tick) =>
      let published := handler.publishTick expired tick
      (published.1, .notified published.2)
  | .publish expired (.orderBook book) =>
      let published := handler.publishOrderBook expired book
      (published.1, .notified published.2)
  | .getLatestTick symbol => (handler, .tick (handler.getLatestTick symbol))
  | .getLatestOrderBook symbol =>
      (handler, .orderBook (handler.getLatestOrderBook symbol))
  | .getTickHistory symbol limit =>
      (handler, .ticks (handler.getTickHistory symbol limit))

/-- The program points under `dataMutex`, each before the statement it names,
with the locals. -/
inductive MarketDataPoint where
  | findOrInsert (symbol : String) (listener : ListenerId)
  | pushListener (symbol : String) (listener : ListenerId)
  | findSubscribed (expired : ListenerId → Bool) (symbol : String)
      (listener : ListenerId)
  | eraseListeners (expired : ListenerId → Bool) (symbol : String)
      (listener : ListenerId)
  | findPublished (expired : ListenerId → Bool) (publication : Publication)
  | pushBack (expired : ListenerId → Bool) (publication : Publication)
  | testSize (expired : ListenerId → Bool) (publication : Publication)
  | popFront (expired : ListenerId → Bool) (publication : Publication)
  | notifyNext (expired : ListenerId → Bool) (publication : Publication)
      (index : Nat) (called : List ListenerId)
  | findTick (symbol : String)
  | backTick (symbol : String)
  | findOrderBook (symbol : String)
  | backOrderBook (symbol : String)
  | findHistory (symbol : String) (limit : Nat)
  | testLimit (symbol : String) (limit : Nat)
  | copyNext (symbol : String) (limit index : Nat) (result : List MarketTick)
  | finished (answer : MarketAnswer)

namespace MarketDataPoint

def enter : MarketOperation → MarketDataPoint
  | .subscribe symbol listener => .findOrInsert symbol listener
  | .unsubscribe expired symbol listener =>
      .findSubscribed expired symbol listener
  | .publish expired publication => .findPublished expired publication
  | .getLatestTick symbol => .findTick symbol
  | .getLatestOrderBook symbol => .findOrderBook symbol
  | .getTickHistory symbol limit => .findHistory symbol limit

/-- `symbolDataMap.find(symbol) != symbolDataMap.end()`. -/
def found (handler : MarketDataHandler) (symbol : String) : Bool :=
  (handler.symbolDataMap[symbol]?).isSome

/-- A read through the iterator. -/
def read (handler : MarketDataHandler) (symbol : String) : SymbolData :=
  (handler.symbolDataMap[symbol]?).getD default

/-- A write through the iterator. -/
def write (handler : MarketDataHandler) (symbol : String)
    (change : SymbolData → SymbolData) : MarketDataHandler :=
  { symbolDataMap := handler.symbolDataMap.modify symbol change }

def step (point : MarketDataPoint) (handler : MarketDataHandler) :
    MarketDataHandler × MarketDataPoint :=
  match point with
  | .findOrInsert symbol listener =>
      (if found handler symbol then handler
        else { symbolDataMap := handler.symbolDataMap.insert symbol default },
        .pushListener symbol listener)
  | .pushListener symbol listener =>
      (write handler symbol fun data =>
          { data with listeners := data.listeners ++ [listener] },
        .finished .done)
  | .findSubscribed expired symbol listener =>
      (handler,
        if found handler symbol then .eraseListeners expired symbol listener
        else .finished .done)
  | .eraseListeners expired symbol listener =>
      (write handler symbol fun data =>
          { data with
            listeners := data.listeners.filter fun other =>
              !(expired other || other == listener) },
        .finished .done)
  | .findPublished expired publication =>
      (handler,
        if found handler publication.symbol then .pushBack expired publication
        else .finished (.notified []))
  | .pushBack expired publication =>
      (write handler publication.symbol fun data => publication.pushBack data,
        .testSize expired publication)
  | .testSize expired publication =>
      (handler,
        if maxHistorySize < publication.size (read handler publication.symbol)
        then .popFront expired publication
        else .notifyNext expired publication 0 [])
  | .popFront expired publication =>
      (write handler publication.symbol fun data => publication.popFront data,
        .notifyNext expired publication 0 [])
  | .notifyNext expired publication index called =>
      (handler,
        match (read handler publication.symbol).listeners[index]? with
        | none => .finished (.notified called)
        | some listener =>
            .notifyNext expired publication (index + 1)
              (if expired listener then called else called ++ [listener]))
  | .findTick symbol =>
      (handler,
        if found handler symbol then .backTick symbol
        else .finished (.tick default))
  | .backTick symbol =>
      (handler,
        .finished (.tick
          ((read handler symbol).tickHistory.getLast?.getD default)))
  | .findOrderBook symbol =>
      (handler,
        if found handler symbol then .backOrderBook symbol
        else .finished (.orderBook default))
  | .backOrderBook symbol =>
      (handler,
        .finished (.orderBook
          ((read handler symbol).orderBookHistory.getLast?.getD default)))
  | .findHistory symbol limit =>
      (handler,
        if found handler symbol then .testLimit symbol limit
        else .finished (.ticks []))
  | .testLimit symbol limit =>
      let size := (read handler symbol).tickHistory.length
      (handler,
        .copyNext symbol limit (if limit < size then size - limit else 0) [])
  | .copyNext symbol limit index result =>
      (handler,
        match (read handler symbol).tickHistory[index]? with
        | none => .finished (.ticks result)
        | some tick => .copyNext symbol limit (index + 1) (result ++ [tick]))
  | .finished answer => (handler, .finished answer)

def exit : MarketDataPoint → Option MarketAnswer
  | .finished answer => some answer
  | _ => none

def code : SectionCode MarketDataHandler MarketDataPoint MarketOperation
    MarketAnswer where
  enter := enter
  step := step
  exit := exit

end MarketDataPoint

end TradingBot
