import TradingBot.Clock
import TradingBot.Signals
import TradingBot.Library.Reflection
import Mathlib.Algebra.Order.Group.Basic

namespace TradingBot

open Library

/-! `MarketSimulator` of `main.cpp`: the walk of its price, and what its rounds
leave with the `MarketDataHandler`. -/

/-- One round of `simulateMarketData` whose clock reading has become a
timestamp. -/
def simulatedRound (basePrice : Rat) (draws : SimulatorDraws)
    (timestamp : Timestamp) : Rat × MarketTick × OrderBook :=
  let basePrice := max (basePrice + draws.priceChange) 50
  let tick : MarketTick :=
    { symbol := "AAPL", bid := basePrice - 1 / 100, ask := basePrice + 1 / 100,
      bidVolume := draws.bidVolume, askVolume := draws.askVolume,
      timestamp := timestamp, lastPrice := basePrice,
      volume := draws.bidVolume + draws.askVolume }
  let book : OrderBook :=
    { symbol := "AAPL"
      bids :=
        [(basePrice - 1 / 100, draws.bidDepth.1),
          (basePrice - 2 / 100, draws.bidDepth.2)]
      asks :=
        [(basePrice + 1 / 100, draws.askDepth.1),
          (basePrice + 2 / 100, draws.askDepth.2)]
      timestamp := tick.timestamp }
  (basePrice, tick, book)

theorem simulateMarketData_eq (basePrice : Rat) (draws : SimulatorDraws)
    (count : Int64) :
    simulateMarketData basePrice draws count =
      (Timestamp.ofCount count).map (simulatedRound basePrice draws) := by
  cases built : Timestamp.ofCount count <;>
    simp [simulateMarketData, simulatedRound, built]

structure Round where
  draws : SimulatorDraws
  timestamp : Timestamp

structure MarketSimulator where
  basePrice : Rat
  tickCount : Nat

namespace MarketSimulator

def init : MarketSimulator where
  basePrice := 100
  tickCount := 0

def maxTicks : Nat := 1000

/-- The body of the loop.  What the listeners do with the tick is left to
them. -/
def round (simulator : MarketSimulator) (expired : ListenerId → Bool)
    (handler : MarketDataHandler) (round : Round) :
    MarketSimulator × MarketDataHandler :=
  let published :=
    simulatedRound simulator.basePrice round.draws round.timestamp
  ({ basePrice := published.1, tickCount := simulator.tickCount + 1 },
    (((handler.publishTick expired published.2.1).1).publishOrderBook expired
      published.2.2).1)

/-- `while (running && tickCount < 1000)`, with `running` cleared after the
given rounds. -/
def simulateMarketData (expired : ListenerId → Bool) :
    MarketSimulator → MarketDataHandler → List Round →
      MarketSimulator × MarketDataHandler
  | simulator, handler, [] => (simulator, handler)
  | simulator, handler, first :: rest =>
      if simulator.tickCount < maxTicks then
        let after := simulator.round expired handler first
        simulateMarketData expired after.1 after.2 rest
      else (simulator, handler)

end MarketSimulator

/-- Both sides are sorted from the best price on, positive and apart. -/
structure OrderBook.WellFormed (book : OrderBook) : Prop where
  bids : book.bids.Pairwise fun better worse => worse.1 < better.1
  asks : book.asks.Pairwise fun better worse => better.1 < worse.1
  apart : ∀ bid ∈ book.bids, ∀ ask ∈ book.asks, bid.1 < ask.1
  positive : ∀ bid ∈ book.bids, 0 < bid.1

section Round

variable (basePrice : Rat) (draws : SimulatorDraws) (timestamp : Timestamp)

theorem simulatedRound_simulated :
    (simulatedRound basePrice draws timestamp).2.1.Simulated where
  symbol := rfl
  floor := le_max_right _ _
  bid := rfl
  ask := rfl

theorem simulatedRound_wellFormed :
    (simulatedRound basePrice draws timestamp).2.2.WellFormed := by
  have floor : 50 ≤ max (basePrice + draws.priceChange) 50 := le_max_right _ _
  constructor
  · simp [simulatedRound]
    norm_num
  · simp [simulatedRound]
    norm_num
  · simp only [simulatedRound, List.mem_cons, List.not_mem_nil, or_false,
      forall_eq_or_imp, forall_eq]
    refine ⟨⟨?_, ?_⟩, ?_, ?_⟩ <;> linarith
  · simp only [simulatedRound, List.mem_cons, List.not_mem_nil, or_false,
      forall_eq_or_imp, forall_eq]
    constructor <;> linarith

theorem simulatedRound_midPrice :
    (simulatedRound basePrice draws timestamp).2.2.getMidPrice =
      (simulatedRound basePrice draws timestamp).2.1.lastPrice := by
  simp only [simulatedRound, OrderBook.getMidPrice]
  ring

theorem simulatedRound_spread :
    (simulatedRound basePrice draws timestamp).2.2.getSpread = 1 / 50 := by
  simp only [simulatedRound, OrderBook.getSpread]
  ring

end Round

namespace MarketSimulator

def changes (rounds : List Round) : List Rat :=
  rounds.map fun round => round.draws.priceChange

/-- What the rounds publish from a price on. -/
def publications : Rat → List Round → List (MarketTick × OrderBook)
  | _, [] => []
  | basePrice, first :: rest =>
      let published := simulatedRound basePrice first.draws first.timestamp
      published.2 :: publications published.1 rest

theorem publications_getElem? (basePrice : Rat) (rounds : List Round)
    (index : Nat) :
    (publications basePrice rounds)[index]? =
      (rounds[index]?).map fun round =>
        (simulatedRound (reflected 50 basePrice (changes (rounds.take index)))
          round.draws round.timestamp).2 := by
  induction rounds generalizing basePrice index with
  | nil => rfl
  | cons first rest induction =>
      cases index with
      | zero => rfl
      | succ index =>
          rw [publications, List.getElem?_cons_succ, List.getElem?_cons_succ,
            induction]
          rfl

theorem length_publications (basePrice : Rat) (rounds : List Round) :
    (publications basePrice rounds).length = rounds.length := by
  induction rounds generalizing basePrice with
  | nil => rfl
  | cons first rest induction => simp [publications, induction]

theorem pushBounded_of_lt {α : Type*} {history : List α} {entry : α}
    (room : history.length < maxHistorySize) :
    pushBounded history entry = history ++ [entry] := by
  rw [pushBounded, if_neg]
  rw [List.length_append, List.length_singleton]
  omega

variable (expired : ListenerId → Bool)

theorem round_data (simulator : MarketSimulator) {handler : MarketDataHandler}
    {data : SymbolData} (found : handler.symbolDataMap["AAPL"]? = some data)
    (round : Round) :
    (simulator.round expired handler round).2.symbolDataMap["AAPL"]? =
      some { data with
        tickHistory := pushBounded data.tickHistory
          (simulatedRound simulator.basePrice round.draws
            round.timestamp).2.1
        orderBookHistory := pushBounded data.orderBookHistory
          (simulatedRound simulator.basePrice round.draws
            round.timestamp).2.2 } := by
  simp only [MarketSimulator.round, MarketDataHandler.publishOrderBook_data,
    MarketDataHandler.publishTick_data, found, Option.map_some, simulatedRound,
    if_true]

/-- The histories take up everything, as the loop ends long before they are
full. -/
theorem simulateMarketData_data (simulator : MarketSimulator)
    {handler : MarketDataHandler} {data : SymbolData} (rounds : List Round)
    (found : handler.symbolDataMap["AAPL"]? = some data)
    (ticks : data.tickHistory.length = simulator.tickCount)
    (books : data.orderBookHistory.length = simulator.tickCount) :
    let performed := rounds.take (maxTicks - simulator.tickCount)
    let after := simulateMarketData expired simulator handler rounds
    after.1.tickCount = simulator.tickCount + performed.length ∧
      after.1.basePrice =
        reflected 50 simulator.basePrice (changes performed) ∧
      after.2.symbolDataMap["AAPL"]? =
        some { data with
          tickHistory := data.tickHistory ++
            (publications simulator.basePrice performed).map Prod.fst
          orderBookHistory := data.orderBookHistory ++
            (publications simulator.basePrice performed).map Prod.snd } := by
  induction rounds generalizing simulator handler data with
  | nil =>
      simp [simulateMarketData, publications, changes, reflected, found]
  | cons first rest induction =>
      dsimp only
      rw [simulateMarketData]
      split
      next running =>
          have room : ∀ {size : Nat}, size = simulator.tickCount →
              size < maxHistorySize := by
            rintro size rfl
            exact running.trans (by decide)
          have left : maxTicks - simulator.tickCount =
              maxTicks - (simulator.tickCount + 1) + 1 := by omega
          have data' := round_data expired simulator found first
          rw [pushBounded_of_lt (room ticks), pushBounded_of_lt (room books)]
            at data'
          obtain ⟨count, price, stored⟩ := induction
            (simulator.round expired handler first).1 data'
            (by simp [MarketSimulator.round, ticks])
            (by simp [MarketSimulator.round, books])
          rw [left, List.take_succ_cons]
          refine ⟨?_, ?_, ?_⟩
          · rw [count]
            simp [MarketSimulator.round]
            omega
          · rw [price]
            rfl
          · rw [stored]
            simp [publications, MarketSimulator.round]
      next stopped =>
          have none : maxTicks - simulator.tickCount = 0 := by omega
          simp [none, publications, changes, reflected, found]

/-- What some rounds leave: the price at the greatest of its free paths, and a
tick and a book of each round that agree with one another. -/
structure Published (rounds : List Round) (simulator : MarketSimulator)
    (data : SymbolData) : Prop where
  count : simulator.tickCount = rounds.length
  price : IsGreatest (freePaths 50 100 (changes rounds)) simulator.basePrice
  ticks : data.tickHistory.length = rounds.length
  books : data.orderBookHistory.length = rounds.length
  rounds : ∀ (index : Nat) (round : Round), rounds[index]? = some round →
    ∃ tick ∈ data.tickHistory[index]?, ∃ book ∈ data.orderBookHistory[index]?,
      IsGreatest (freePaths 50 100 (changes (rounds.take (index + 1))))
          tick.lastPrice ∧
        tick.Simulated ∧ book.WellFormed ∧
        book.getMidPrice = tick.lastPrice ∧ book.getSpread = 1 / 50 ∧
        tick.timestamp = round.timestamp ∧ book.timestamp = round.timestamp

/-- The loop of `simulateMarketData`, with any draws and any clock, over a
handler to which listeners have just subscribed. -/
theorem simulateMarketData_published (handler : MarketDataHandler)
    (rounds : List Round) {listeners : List ListenerId}
    (subscribed : handler.symbolDataMap["AAPL"]? =
      some { tickHistory := [], orderBookHistory := [], listeners }) :
    ∃ data,
      (simulateMarketData expired init handler rounds).2.symbolDataMap["AAPL"]? =
        some data ∧
      Published (rounds.take maxTicks)
        (simulateMarketData expired init handler rounds).1 data := by
  obtain ⟨count, price, stored⟩ := simulateMarketData_data expired init
    rounds subscribed rfl rfl
  have walked : ∀ performed, IsGreatest (freePaths 50 100 (changes performed))
      (reflected 50 100 (changes performed)) :=
    fun performed => reflected_isGreatest 50 100 (changes performed)
  refine ⟨_, stored, ?_⟩
  refine
    { count := by simpa [init] using count
      price := price ▸ walked _
      ticks := by simp [length_publications, init]
      books := by simp [length_publications, init]
      rounds := ?_ }
  intro index round found
  have published := publications_getElem? 100 (rounds.take maxTicks) index
  rw [found, Option.map_some] at published
  have next : changes ((rounds.take maxTicks).take (index + 1)) =
      changes ((rounds.take maxTicks).take index) ++ [round.draws.priceChange] := by
    rw [List.take_add_one, found]
    simp [changes]
  let before := reflected 50 100 (changes ((rounds.take maxTicks).take index))
  refine ⟨(simulatedRound before round.draws round.timestamp).2.1, ?_,
    (simulatedRound before round.draws round.timestamp).2.2, ?_, ?_,
    simulatedRound_simulated before round.draws round.timestamp,
    simulatedRound_wellFormed before round.draws round.timestamp,
    simulatedRound_midPrice before round.draws round.timestamp,
    simulatedRound_spread before round.draws round.timestamp, rfl, rfl⟩
  · show ([] ++ List.map Prod.fst _)[index]? = some _
    rw [List.nil_append, List.getElem?_map]
    exact congrArg (Option.map Prod.fst) published
  · show ([] ++ List.map Prod.snd _)[index]? = some _
    rw [List.nil_append, List.getElem?_map]
    exact congrArg (Option.map Prod.snd) published
  · have walk := walked ((rounds.take maxTicks).take (index + 1))
    rw [next, reflected_concat] at walk
    rw [next]
    exact walk

theorem subscribe_init_data (listener : ListenerId) :
    (MarketDataHandler.init.subscribe "AAPL" listener).symbolDataMap["AAPL"]? =
      some
        { tickHistory := [], orderBookHistory := []
          listeners := [listener] } := by
  rw [MarketDataHandler.subscribe_data, if_pos rfl]
  simp only [MarketDataHandler.init, Std.ExtTreeMap.getElem?_empty]
  rfl

private def risingRound : Round where
  draws :=
    { priceChange := 1, bidVolume := 100, askVolume := 200,
      bidDepth := (100, 200), askDepth := (300, 400) }
  timestamp := default

theorem simulateMarketData_published_rising :
    ∃ data,
      (simulateMarketData (fun _ => false) init
          (MarketDataHandler.init.subscribe "AAPL" 0)
          [risingRound, risingRound]).2.symbolDataMap["AAPL"]? = some data ∧
      Published ([risingRound, risingRound].take maxTicks)
        (simulateMarketData (fun _ => false) init
          (MarketDataHandler.init.subscribe "AAPL" 0)
          [risingRound, risingRound]).1 data :=
  simulateMarketData_published (fun _ => false) _ _ (subscribe_init_data 0)

end MarketSimulator

end TradingBot
