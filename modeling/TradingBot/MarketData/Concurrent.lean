import TradingBot.MarketData.Sections

namespace TradingBot

open Library

/-! Calls of one `MarketDataHandler` from any number of threads at once. -/

namespace Publication

/-- The history with the publication added and cut to its bound. -/
def added (publication : Publication) (data : SymbolData) : SymbolData :=
  let pushed := publication.pushBack data
  if maxHistorySize < publication.size pushed then publication.popFront pushed
  else pushed

theorem added_tick (tick : MarketTick) (data : SymbolData) :
    (Publication.tick tick).added data =
      { data with tickHistory := pushBounded data.tickHistory tick } := by
  by_cases full : maxHistorySize < (data.tickHistory ++ [tick]).length
  · rw [pushBounded, if_pos full]
    exact if_pos full
  · rw [pushBounded, if_neg full]
    exact if_neg full

theorem added_orderBook (book : OrderBook) (data : SymbolData) :
    (Publication.orderBook book).added data =
      { data with orderBookHistory := pushBounded data.orderBookHistory book } := by
  by_cases full : maxHistorySize < (data.orderBookHistory ++ [book]).length
  · rw [pushBounded, if_pos full]
    exact if_pos full
  · rw [pushBounded, if_neg full]
    exact if_neg full

theorem listeners_added (publication : Publication) (data : SymbolData) :
    (publication.added data).listeners = data.listeners := by
  cases publication with
  | tick tick => rw [added_tick]
  | orderBook book => rw [added_orderBook]

end Publication

namespace MarketDataHandler

variable {handler : MarketDataHandler} {expired : ListenerId → Bool}
  {publication : Publication} {data : SymbolData}

theorem answer_publish
    (found : handler.symbolDataMap[publication.symbol]? = some data) :
    handler.answer (.publish expired publication) =
      ({ symbolDataMap :=
          handler.symbolDataMap.insert publication.symbol
            (publication.added data) },
        .notified (data.listeners.filter fun listener => !expired listener)) := by
  cases publication with
  | tick tick =>
      rw [Publication.added_tick]
      simp only [Publication.symbol] at found ⊢
      simp [answer, publishTick, found]
  | orderBook book =>
      rw [Publication.added_orderBook]
      simp only [Publication.symbol] at found ⊢
      simp [answer, publishOrderBook, found]

theorem answer_unpublished
    (absent : handler.symbolDataMap[publication.symbol]? = none) :
    handler.answer (.publish expired publication) =
      (handler, .notified []) := by
  cases publication with
  | tick tick =>
      simp only [Publication.symbol] at absent
      simp [answer, publishTick, absent]
  | orderBook book =>
      simp only [Publication.symbol] at absent
      simp [answer, publishOrderBook, absent]

end MarketDataHandler

namespace MarketDataPoint

/-- What is known at a point of a section that found the handler as it was
before. -/
def Holds (performed : MarketOperation) (before handler : MarketDataHandler) :
    MarketDataPoint → Prop
  | .findOrInsert symbol listener =>
      performed = .subscribe symbol listener ∧ handler = before
  | .pushListener symbol listener =>
      performed = .subscribe symbol listener ∧
        handler.symbolDataMap =
          before.symbolDataMap.insert symbol (read before symbol)
  | .findSubscribed expired symbol listener =>
      performed = .unsubscribe expired symbol listener ∧ handler = before
  | .eraseListeners expired symbol listener =>
      performed = .unsubscribe expired symbol listener ∧ handler = before ∧
        found before symbol = true
  | .findPublished expired publication =>
      performed = .publish expired publication ∧ handler = before
  | .pushBack expired publication =>
      performed = .publish expired publication ∧ handler = before ∧
        found before publication.symbol = true
  | .testSize expired publication =>
      ∃ data, performed = .publish expired publication ∧
        before.symbolDataMap[publication.symbol]? = some data ∧
        handler.symbolDataMap =
          before.symbolDataMap.insert publication.symbol
            (publication.pushBack data)
  | .popFront expired publication =>
      ∃ data, performed = .publish expired publication ∧
        before.symbolDataMap[publication.symbol]? = some data ∧
        maxHistorySize < publication.size (publication.pushBack data) ∧
        handler.symbolDataMap =
          before.symbolDataMap.insert publication.symbol
            (publication.pushBack data)
  | .notifyNext expired publication index called =>
      ∃ data passed rest, performed = .publish expired publication ∧
        before.symbolDataMap[publication.symbol]? = some data ∧
        handler = (before.answer performed).1 ∧
        data.listeners = passed ++ rest ∧ passed.length = index ∧
        called = passed.filter fun listener => !expired listener
  | .findTick symbol => performed = .getLatestTick symbol ∧ handler = before
  | .backTick symbol =>
      performed = .getLatestTick symbol ∧ handler = before ∧
        found before symbol = true
  | .findOrderBook symbol =>
      performed = .getLatestOrderBook symbol ∧ handler = before
  | .backOrderBook symbol =>
      performed = .getLatestOrderBook symbol ∧ handler = before ∧
        found before symbol = true
  | .findHistory symbol limit =>
      performed = .getTickHistory symbol limit ∧ handler = before
  | .testLimit symbol limit =>
      performed = .getTickHistory symbol limit ∧ handler = before ∧
        found before symbol = true
  | .copyNext symbol limit index result =>
      performed = .getTickHistory symbol limit ∧ handler = before ∧
        before.getTickHistory symbol limit =
          result ++ (read before symbol).tickHistory.drop index
  | .finished answer => (handler, answer) = before.answer performed

variable {performed : MarketOperation} {before handler : MarketDataHandler}

theorem holds_enter (performed : MarketOperation) (before : MarketDataHandler) :
    Holds performed before before (enter performed) := by
  cases performed <;> exact ⟨rfl, rfl⟩

theorem found_eq_true {symbol : String} :
    found handler symbol = true ↔
      handler.symbolDataMap[symbol]? = some (read handler symbol) := by
  unfold found read
  cases handler.symbolDataMap[symbol]? <;> simp

theorem found_eq_false {symbol : String} :
    ¬ found handler symbol = true ↔ handler.symbolDataMap[symbol]? = none := by
  simp [found]

theorem write_of_found {symbol : String} {data : SymbolData}
    (found : handler.symbolDataMap[symbol]? = some data)
    (change : SymbolData → SymbolData) :
    write handler symbol change =
      { symbolDataMap := handler.symbolDataMap.insert symbol (change data) } := by
  rw [write, modify_eq_insert found]

theorem write_of_written {symbol : String} {written : SymbolData}
    (same : handler.symbolDataMap = before.symbolDataMap.insert symbol written)
    (change : SymbolData → SymbolData) :
    write handler symbol change =
      { symbolDataMap :=
          before.symbolDataMap.insert symbol (change written) } := by
  have found : handler.symbolDataMap[symbol]? = some written := by
    rw [same]
    exact Std.ExtTreeMap.getElem?_insert_self
  rw [write_of_found found, same, insert_insert]

theorem read_of_written {symbol : String} {written : SymbolData}
    (same : handler.symbolDataMap = before.symbolDataMap.insert symbol written) :
    read handler symbol = written := by
  rw [read, same, Std.ExtTreeMap.getElem?_insert_self, Option.getD_some]

theorem holds_pushed {expired : ListenerId → Bool} {publication : Publication}
    {data : SymbolData}
    (found : before.symbolDataMap[publication.symbol]? = some data)
    (same : handler = { symbolDataMap :=
      before.symbolDataMap.insert publication.symbol (publication.added data) }) :
    Holds (.publish expired publication) before handler
      (.notifyNext expired publication 0 []) := by
  refine ⟨data, [], data.listeners, rfl, found, ?_, rfl, rfl, rfl⟩
  rw [MarketDataHandler.answer_publish found, same]

theorem holds_step {point : MarketDataPoint}
    (holds : Holds performed before handler point)
    (inside : point.exit = none) :
    Holds performed before (point.step handler).1 (point.step handler).2 := by
  cases point with
  | findOrInsert symbol listener =>
      obtain ⟨rfl, rfl⟩ := holds
      refine ⟨rfl, ?_⟩
      dsimp only [step]
      split
      next found =>
          exact (insert_eq_self_iff.mpr (found_eq_true.mp found)).symm
      next absent => rw [read, found_eq_false.mp absent, Option.getD_none]
  | pushListener symbol listener =>
      obtain ⟨rfl, same⟩ := holds
      exact Prod.ext (write_of_written same _) rfl
  | findSubscribed expired symbol listener =>
      obtain ⟨rfl, rfl⟩ := holds
      dsimp only [step]
      split
      next found => exact ⟨rfl, rfl, found⟩
      next absent =>
          have missing := found_eq_false.mp absent
          simp [Holds, MarketDataHandler.answer, MarketDataHandler.unsubscribe,
            missing]
  | eraseListeners expired symbol listener =>
      obtain ⟨rfl, rfl, found⟩ := holds
      have present := found_eq_true.mp found
      refine Prod.ext ?_ rfl
      simp only [step, write_of_found present, MarketDataHandler.answer,
        MarketDataHandler.unsubscribe, present]
  | findPublished expired publication =>
      obtain ⟨rfl, rfl⟩ := holds
      dsimp only [step]
      split
      next found => exact ⟨rfl, rfl, found⟩
      next absent =>
          exact (MarketDataHandler.answer_unpublished
            (found_eq_false.mp absent)).symm
  | pushBack expired publication =>
      obtain ⟨rfl, rfl, found⟩ := holds
      have present := found_eq_true.mp found
      refine ⟨_, rfl, present, ?_⟩
      simp only [step, write_of_found present]
  | testSize expired publication =>
      obtain ⟨data, rfl, found, same⟩ := holds
      dsimp only [step]
      rw [read_of_written same]
      split
      next full => exact ⟨data, rfl, found, full, same⟩
      next fits =>
          refine holds_pushed found ?_
          rw [Publication.added, if_neg fits, ← same]
  | popFront expired publication =>
      obtain ⟨data, rfl, found, full, same⟩ := holds
      refine holds_pushed found ?_
      rw [Publication.added, if_pos full]
      exact write_of_written same _
  | notifyNext expired publication index called =>
      obtain ⟨data, passed, rest, rfl, found, same, split, rfl, rfl⟩ := holds
      have answer : before.answer (.publish expired publication) = _ :=
        MarketDataHandler.answer_publish found
      have written : handler.symbolDataMap =
          before.symbolDataMap.insert publication.symbol
            (publication.added data) := by
        rw [same, answer]
      have reached : (passed ++ rest)[passed.length]? = rest.head? := by
        cases rest <;> simp
      dsimp only [step]
      rw [read_of_written written, publication.listeners_added, split, reached]
      cases rest with
      | nil =>
          rw [List.append_nil] at split
          show (_, _) = _
          rw [same, answer, split]
      | cons listener rest =>
          refine ⟨data, passed ++ [listener], rest, rfl, found, same,
            by simp [split], by simp, ?_⟩
          cases gone : expired listener <;> simp [gone]
  | findTick symbol =>
      obtain ⟨rfl, rfl⟩ := holds
      dsimp only [step]
      split
      next found => exact ⟨rfl, rfl, found⟩
      next absent =>
          have missing := found_eq_false.mp absent
          simp [Holds, MarketDataHandler.answer, MarketDataHandler.getLatestTick,
            missing]
  | backTick symbol =>
      obtain ⟨rfl, rfl, found⟩ := holds
      have present := found_eq_true.mp found
      simp [step, Holds, MarketDataHandler.answer,
        MarketDataHandler.getLatestTick, present]
  | findOrderBook symbol =>
      obtain ⟨rfl, rfl⟩ := holds
      dsimp only [step]
      split
      next found => exact ⟨rfl, rfl, found⟩
      next absent =>
          have missing := found_eq_false.mp absent
          simp [Holds, MarketDataHandler.answer,
            MarketDataHandler.getLatestOrderBook, missing]
  | backOrderBook symbol =>
      obtain ⟨rfl, rfl, found⟩ := holds
      have present := found_eq_true.mp found
      simp [step, Holds, MarketDataHandler.answer,
        MarketDataHandler.getLatestOrderBook, present]
  | findHistory symbol limit =>
      obtain ⟨rfl, rfl⟩ := holds
      dsimp only [step]
      split
      next found => exact ⟨rfl, rfl, found⟩
      next absent =>
          have missing := found_eq_false.mp absent
          simp [Holds, MarketDataHandler.answer,
            MarketDataHandler.getTickHistory, missing]
  | testLimit symbol limit =>
      obtain ⟨rfl, rfl, found⟩ := holds
      have present := found_eq_true.mp found
      refine ⟨rfl, rfl, ?_⟩
      simp only [MarketDataHandler.getTickHistory, present, List.nil_append]
  | copyNext symbol limit index result =>
      obtain ⟨rfl, rfl, copied⟩ := holds
      dsimp only [step]
      split
      next ended =>
          rw [List.drop_eq_nil_of_le (List.getElem?_eq_none_iff.mp ended),
            List.append_nil] at copied
          show (_, _) = _
          rw [← copied]
          rfl
      next tick reached =>
          obtain ⟨within, same⟩ := List.getElem?_eq_some_iff.mp reached
          refine ⟨rfl, rfl, ?_⟩
          rw [copied, List.drop_eq_getElem_cons within, same, List.append_assoc]
          rfl
  | finished answer => simp [exit] at inside

theorem holds_of_within {point : MarketDataPoint}
    (within : code.Within performed before handler point) :
    Holds performed before handler point := by
  induction within with
  | enter => exact holds_enter performed before
  | step _ inside induction => exact holds_step induction inside

theorem returns {point : MarketDataPoint} {answer : MarketAnswer}
    (within : code.Within performed before handler point)
    (exits : point.exit = some answer) :
    (handler, answer) = before.answer performed := by
  have holds := holds_of_within within
  cases point with
  | finished answer =>
      cases exits
      exact holds
  | _ => simp [exit] at exits

/-- Nothing is read without the mutex, so the section may take effect when it
ends. -/
theorem implements :
    code.Implements MarketDataHandler.answer (fun _ => ())
      (fun point => point.exit.isSome) where
  enters := fun performed => by cases performed <;> rfl
  stays := fun point _ inside done => by
    rw [show point.exit = none from inside] at done
    cases done
  exits := fun point answer exits => by
    rw [show point.exit = some answer from exits]
    rfl
  returns := fun _ _ _ _ _ within exits => returns within exits
  hidden := fun _ _ _ _ _ _ => rfl
  shown := fun _ _ _ _ _ _ => rfl

end MarketDataPoint

namespace MarketDataHandler

structure WithinBound (data : SymbolData) : Prop where
  ticks : data.tickHistory.length ≤ maxHistorySize
  orderBooks : data.orderBookHistory.length ≤ maxHistorySize

def Bounded (handler : MarketDataHandler) : Prop :=
  ∀ (symbol : String), ∀ data ∈ handler.symbolDataMap[symbol]?, WithinBound data

theorem bounded_init : init.Bounded := by
  intro symbol data found
  simp [init] at found

theorem length_pushBounded_le {Entry : Type} {history : List Entry}
    (fits : history.length ≤ maxHistorySize) (entry : Entry) :
    (pushBounded history entry).length ≤ maxHistorySize := by
  by_cases full : maxHistorySize < (history ++ [entry]).length
  · rw [pushBounded, if_pos full, List.length_tail, List.length_append,
      List.length_singleton]
    omega
  · rw [pushBounded, if_neg full]
    exact not_lt.mp full

theorem Bounded.insert {handler : MarketDataHandler} (bounded : handler.Bounded)
    {symbol : String} {data : SymbolData} (fits : WithinBound data) :
    Bounded { symbolDataMap := handler.symbolDataMap.insert symbol data } := by
  intro other entry found
  rw [Option.mem_def, getElem?_insert_eq_ite] at found
  split at found
  next => exact Option.some.inj found ▸ fits
  next => exact bounded other entry found

/-- Every member function keeps the bound. -/
theorem Bounded.answer {handler : MarketDataHandler} (bounded : handler.Bounded)
    (operation : MarketOperation) : (handler.answer operation).1.Bounded := by
  cases operation with
  | subscribe symbol listener =>
      refine bounded.insert ?_
      cases found : handler.symbolDataMap[symbol]? with
      | none => exact ⟨Nat.zero_le _, Nat.zero_le _⟩
      | some data => exact ⟨(bounded symbol data found).1, (bounded symbol data found).2⟩
  | unsubscribe expired symbol listener =>
      dsimp only [MarketDataHandler.answer, unsubscribe]
      split
      next => exact bounded
      next data found =>
          have fits := bounded symbol data found
          exact bounded.insert ⟨fits.ticks, fits.orderBooks⟩
  | publish expired publication =>
      cases found : handler.symbolDataMap[publication.symbol]? with
      | none =>
          rw [answer_unpublished found]
          exact bounded
      | some data =>
          rw [answer_publish found]
          have fits := bounded publication.symbol data found
          refine bounded.insert ?_
          cases publication with
          | tick tick =>
              rw [Publication.added_tick]
              exact ⟨length_pushBounded_le fits.ticks tick, fits.orderBooks⟩
          | orderBook book =>
              rw [Publication.added_orderBook]
              exact ⟨fits.ticks, length_pushBounded_le fits.orderBooks book⟩
  | getLatestTick symbol | getLatestOrderBook symbol
  | getTickHistory symbol limit => exact bounded

theorem Bounded.ticks {handler : MarketDataHandler} (bounded : handler.Bounded)
    {operation : MarketOperation} {history : List MarketTick}
    (answered : (handler.answer operation).2 = .ticks history) :
    history.length ≤ maxHistorySize := by
  cases operation with
  | getTickHistory symbol limit =>
      cases answered
      unfold getTickHistory
      split
      next => exact Nat.zero_le _
      next data found =>
          have fits := (bounded symbol data found).ticks
          rw [List.length_drop]
          omega
  | publish expired publication => cases publication <;> cases answered
  | _ => cases answered

end MarketDataHandler

namespace ConcurrentMarketData

/-- One mutex, `dataMutex`, guards everything. -/
def object : LockedObject (fun _ : Unit => MarketDataHandler)
    (fun _ => MarketDataPoint) (fun _ => Unit) (fun _ => MarketOperation)
    MarketOperation MarketAnswer where
  access := fun operation => .locked () operation
  code := fun _ => MarketDataPoint.code
  view := fun _ _ => ()
  read := fun _ _ _ => .done

def init (start : MarketDataHandler) :
    ObjectState (fun _ : Unit => MarketDataHandler) (fun _ => MarketDataPoint)
      MarketOperation MarketAnswer :=
  LockedObject.init fun _ => start

def machine (start : MarketDataHandler) := object.machine fun _ => start

/-- What the callers see of a run. -/
def history (start : MarketDataHandler)
    (actions : List (ObjectAction MarketOperation)) :
    List (CallEvent MarketOperation MarketAnswer) :=
  (machine start).record LockedObject.observe (init start) actions

theorem handler_simulates (parts : Unit → MarketDataHandler)
    (operation : MarketOperation) :
    (parts ()).answer operation =
      ((object.sequential (fun _ => MarketDataHandler.answer) parts operation).1
          (),
        (object.sequential (fun _ => MarketDataHandler.answer) parts
          operation).2) := rfl

/-- However the statements of overlapping calls interleave, some order of whole
calls explains what they return; and no call sees the tick too many that
`publishTick` pushes before it pops one. -/
theorem market_calls_linearizable
    {actions : List (ObjectAction MarketOperation)}
    {final : ObjectState (fun _ : Unit => MarketDataHandler)
      (fun _ => MarketDataPoint) MarketOperation MarketAnswer}
    (start : MarketDataHandler)
    (ran : (machine start).run (init start) actions = some final) :
    Linearizable MarketDataHandler.answer start (history start actions) ∧
      (start.Bounded → ∀ ticket ticks,
        .returned ticket (.ticks ticks) ∈ history start actions →
          ticks.length ≤ maxHistorySize) := by
  have linearizable : Linearizable MarketDataHandler.answer start
      (history start actions) :=
    (LockedObject.linearizable (fun _ => MarketDataPoint.implements) ran).map
      handler_simulates
  refine ⟨linearizable, fun bounded ticket ticks returned => ?_⟩
  obtain ⟨between, operation, fits, answered⟩ :=
    linearizable.answer MarketDataHandler.Bounded bounded
      (fun _ operation bounded => bounded.answer operation) returned
  exact fits.ticks answered

private def quoted : MarketTick where
  symbol := "AAPL"
  bid := 99
  ask := 101
  bidVolume := 100
  askVolume := 100
  timestamp := default
  lastPrice := 100
  volume := 200

private def subscribed : MarketDataHandler :=
  MarketDataHandler.init.subscribe "AAPL" 0

private def overlapping : List (ObjectAction MarketOperation) :=
  [.invoke (.publish (fun _ => false) (.tick quoted)),
      .invoke (.getTickHistory "AAPL" 100)] ++
    List.replicate 8 (.advance 0) ++ List.replicate 7 (.advance 1)

theorem market_calls_linearizable_overlapping :
    history subscribed overlapping =
        [.invoked 0 (.publish (fun _ => false) (.tick quoted)),
          .invoked 1 (.getTickHistory "AAPL" 100), .returned 0 (.notified [0]),
          .returned 1 (.ticks [quoted])] ∧
      Linearizable MarketDataHandler.answer subscribed
        (history subscribed overlapping) ∧
      ∀ ticket ticks,
        .returned ticket (.ticks ticks) ∈ history subscribed overlapping →
          ticks.length ≤ maxHistorySize := by
  have ran : (machine subscribed).run (init subscribed) overlapping = some _ :=
    rfl
  have bounded : subscribed.Bounded :=
    MarketDataHandler.bounded_init.answer (.subscribe "AAPL" 0)
  obtain ⟨linearizable, fits⟩ := market_calls_linearizable subscribed ran
  exact ⟨rfl, linearizable, fits bounded⟩

end ConcurrentMarketData

end TradingBot
