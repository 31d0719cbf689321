import TradingBot.Bot.Exposure
import TradingBot.Risk.Snapshot
import TradingBot.Simulator
import TradingBot.Engine

namespace TradingBot

/-! The program: `main`, the thread that `MarketSimulator::start` creates and
the one that `ExecutionEngine::start` creates, over the objects `main` wires. -/

/-- Where `main` is, before the call it names. -/
inductive MainPoint where
  | setRiskLimits
  | startEngine
  | subscribe
  | startSimulator
  | printOrders
  | printTrades
  | printLatency
  | printHistory
  | printPortfolio
  | stopSimulator
  | joinSimulator
  | stopEngine
  | notifyAll
  | joinEngine
  | returned
  deriving DecidableEq

/-- Where `simulateMarketData` is; `notifying` is `queueCV.notify_one()`, the
rest of a listener's call being the bot's feed. -/
inductive MarketPoint where
  | absent
  | whileTest
  | publishTick
  | publishing (book : OrderBook)
  | notifying (book : OrderBook)
  | publishOrderBook (book : OrderBook)
  | sleeping
  | returned
  deriving DecidableEq

/-- What `main` prints. -/
structure Report where
  totalOrdersPlaced : Option UInt64
  totalTradesExecuted : Option UInt64
  averageLatency : Option Rat
  recentTrades : Option (List Trade)
  portfolio : Option Portfolio

def Report.init : Report where
  totalOrdersPlaced := none
  totalTradesExecuted := none
  averageLatency := none
  recentTrades := none
  portfolio := none

structure Application where
  bot : Bot
  riskManager : RiskManager
  main : MainPoint
  simulator : MarketSimulator
  simulatorRunning : Bool
  market : MarketPoint
  engineRunning : Bool
  execution : ExecutionPoint
  report : Report

inductive ApplicationAction where
  | main
  | testMarket
  | publishTick (round : Round)
  | onTick
  | placeOrder
  | submitOrder
  | notifyOne
  | returnOnTick
  | returnPublishTick
  | publishOrderBook
  | wakeUp
  | advanceLoop
  | takeRequest (request : ExecutionRequest)
  | getLatestTick
  | simulateOrderExecution
  | simulateTrade (executedAt : Timestamp)
  | recordLatency (latency : UInt64)
  | wakeSpuriously

/-- The objects before `subscribe`. -/
def Bot.unsubscribed : Bot where
  system := System.init MarketDataHandler.init
  listener := DemoStrategyListener.init
  feed := .idle
  published := []

def Bot.subscribe (bot : Bot) : Bot :=
  { bot with
    system := { bot.system with
      marketData := bot.system.marketData.subscribe "AAPL" 0 } }

/-- No other thread calls the risk manager. -/
def SnapshotGaps.undisturbed : SnapshotGaps where
  beforeTotalRealized := []
  beforeTotalUnrealized := []
  beforeRealized := []
  beforeUnrealized := []
  beforePositions := []

namespace Application

def maxPrintedTrades : Nat := 5

def mainStep (program : Application) : Option Application :=
  let manager := program.bot.system.orderManager
  match program.main with
  | .setRiskLimits =>
      some { program with
        riskManager := program.riskManager.setRiskLimits mainLimits
        main := .startEngine }
  | .startEngine =>
      some { program with
        engineRunning := true, execution := .whileTest, main := .subscribe }
  | .subscribe =>
      some { program with bot := program.bot.subscribe, main := .startSimulator }
  | .startSimulator =>
      some { program with
        simulatorRunning := true, market := .whileTest, main := .printOrders }
  | .printOrders =>
      some { program with
        report := { program.report with
          totalOrdersPlaced := some manager.totalOrdersPlaced }
        main := .printTrades }
  | .printTrades =>
      some { program with
        report := { program.report with
          totalTradesExecuted := some manager.totalTradesExecuted }
        main := .printLatency }
  | .printLatency =>
      some { program with
        report := { program.report with
          averageLatency := some program.bot.system.stats.getAverageLatency }
        main := .printHistory }
  | .printHistory =>
      some { program with
        report := { program.report with
          recentTrades := some (manager.getTradeHistory.take maxPrintedTrades) }
        main := .printPortfolio }
  | .printPortfolio =>
      some { program with
        report := { program.report with
          portfolio := some (program.riskManager.getPortfolioSnapshot
            .undisturbed manager.totalTradesExecuted) }
        main := .stopSimulator }
  | .stopSimulator =>
      some { program with simulatorRunning := false, main := .joinSimulator }
  | .joinSimulator =>
      if program.market = .returned then
        some { program with main := .stopEngine }
      else none
  | .stopEngine =>
      some { program with engineRunning := false, main := .notifyAll }
  | .notifyAll =>
      some { program with
        execution := program.execution.wake, main := .joinEngine }
  | .joinEngine =>
      if program.execution = .returned then
        some { program with main := .returned }
      else none
  | .returned => none

/-- `while (running && tickCount < 1000)`. -/
def testMarket (program : Application) : Option Application :=
  if program.market = .whileTest then
    some { program with
      market :=
        if program.simulatorRunning ∧
            program.simulator.tickCount < MarketSimulator.maxTicks then
          .publishTick
        else .returned }
  else none

def publishTick (program : Application) (round : Round) : Option Application :=
  let published :=
    simulatedRound program.simulator.basePrice round.draws round.timestamp
  if program.market = .publishTick then
    (program.bot.publishTick published.2.1).map fun bot =>
      { program with
        bot
        simulator := { program.simulator with basePrice := published.1 }
        market := .publishing published.2.2 }
  else none

def listenerStep (program : Application) (next : Option Bot) : Option Application :=
  match program.market with
  | .publishing _ => next.map fun bot => { program with bot }
  | _ => none

/-- `executionQueue.push` waits for `queueMutex`. -/
def submitOrder (program : Application) : Option Application :=
  match program.market with
  | .publishing book =>
      if program.execution = .blocking then none
      else program.bot.submitOrder.map fun bot =>
        { program with bot, market := .notifying book }
  | _ => none

def notifyOne (program : Application) : Option Application :=
  match program.market with
  | .notifying book =>
      some { program with
        execution := program.execution.wake, market := .publishing book }
  | _ => none

def returnPublishTick (program : Application) : Option Application :=
  match program.market with
  | .publishing book => program.bot.returnPublishTick.map fun bot =>
      { program with bot, market := .publishOrderBook book }
  | _ => none

def publishOrderBook (program : Application) : Option Application :=
  match program.market with
  | .publishOrderBook book => (program.bot.publishOrderBook book).map fun bot =>
      { program with bot, market := .sleeping }
  | _ => none

def wakeUp (program : Application) : Option Application :=
  if program.market = .sleeping then
    some { program with
      simulator := { program.simulator with
        tickCount := program.simulator.tickCount + 1 }
      market := .whileTest }
  else none

/-- `while (running)`, and `queueCV.wait` with the test after it while the
queue is empty. -/
def advanceLoop (program : Application) : Option Application :=
  match program.execution with
  | .whileTest =>
      some { program with
        execution := if program.engineRunning then .waitTest else .returned }
  | .waitTest =>
      if program.bot.system.executionQueue = [] then
        some { program with
          execution := if program.engineRunning then .blocking else .returned }
      else none
  | .blocking => some { program with execution := .blocked }
  | _ => none

def takeRequest (program : Application) (request : ExecutionRequest) :
    Option Application :=
  if program.execution = .waitTest then
    (program.bot.step (.takeRequest request)).map fun bot =>
      { program with bot, execution := .executing }
  else none

def executeStep (program : Application) (action : BotAction)
    (after : ExecutionPoint) : Option Application :=
  if program.execution = .executing then
    (program.bot.step action).map fun bot =>
      { program with bot, execution := after }
  else none

def wakeSpuriously (program : Application) : Option Application :=
  if program.execution = .blocked then
    some { program with execution := .waitTest }
  else none

def step (program : Application) : ApplicationAction → Option Application
  | .main => program.mainStep
  | .testMarket => program.testMarket
  | .publishTick round => program.publishTick round
  | .onTick => program.listenerStep program.bot.onTick
  | .placeOrder => program.listenerStep program.bot.placeOrder
  | .submitOrder => program.submitOrder
  | .notifyOne => program.notifyOne
  | .returnOnTick => program.listenerStep program.bot.returnOnTick
  | .returnPublishTick => program.returnPublishTick
  | .publishOrderBook => program.publishOrderBook
  | .wakeUp => program.wakeUp
  | .advanceLoop => program.advanceLoop
  | .takeRequest request => program.takeRequest request
  | .getLatestTick => program.executeStep .getLatestTick .executing
  | .simulateOrderExecution =>
      program.executeStep .simulateOrderExecution .executing
  | .simulateTrade executedAt =>
      program.executeStep (.simulateTrade executedAt) .executing
  | .recordLatency latency =>
      program.executeStep (.recordLatency latency) .whileTest
  | .wakeSpuriously => program.wakeSpuriously

def init : Application where
  bot := Bot.unsubscribed
  riskManager := RiskManager.init
  main := .setRiskLimits
  simulator := MarketSimulator.init
  simulatorRunning := false
  market := .absent
  engineRunning := false
  execution := .absent
  report := Report.init

def machine : Library.Machine Application ApplicationAction where
  init := init
  step := step

/-- The steps of `main`. -/
inductive MainStep (program : Application) : Application → Prop
  | setRiskLimits (here : program.main = .setRiskLimits) :
      MainStep program { program with
        riskManager := program.riskManager.setRiskLimits mainLimits
        main := .startEngine }
  | startEngine (here : program.main = .startEngine) :
      MainStep program { program with
        engineRunning := true, execution := .whileTest, main := .subscribe }
  | subscribe (here : program.main = .subscribe) :
      MainStep program { program with
        bot := program.bot.subscribe, main := .startSimulator }
  | startSimulator (here : program.main = .startSimulator) :
      MainStep program { program with
        simulatorRunning := true, market := .whileTest, main := .printOrders }
  | printOrders (here : program.main = .printOrders) :
      MainStep program { program with
        report := { program.report with
          totalOrdersPlaced :=
            some program.bot.system.orderManager.totalOrdersPlaced }
        main := .printTrades }
  | printTrades (here : program.main = .printTrades) :
      MainStep program { program with
        report := { program.report with
          totalTradesExecuted :=
            some program.bot.system.orderManager.totalTradesExecuted }
        main := .printLatency }
  | printLatency (here : program.main = .printLatency) :
      MainStep program { program with
        report := { program.report with
          averageLatency := some program.bot.system.stats.getAverageLatency }
        main := .printHistory }
  | printHistory (here : program.main = .printHistory) :
      MainStep program { program with
        report := { program.report with
          recentTrades := some
            (program.bot.system.orderManager.getTradeHistory.take
              maxPrintedTrades) }
        main := .printPortfolio }
  | printPortfolio (here : program.main = .printPortfolio) :
      MainStep program { program with
        report := { program.report with
          portfolio := some (program.riskManager.getPortfolioSnapshot
            .undisturbed
            program.bot.system.orderManager.totalTradesExecuted) }
        main := .stopSimulator }
  | stopSimulator (here : program.main = .stopSimulator) :
      MainStep program { program with
        simulatorRunning := false, main := .joinSimulator }
  | joinSimulator (here : program.main = .joinSimulator)
      (joined : program.market = .returned) :
      MainStep program { program with main := .stopEngine }
  | stopEngine (here : program.main = .stopEngine) :
      MainStep program { program with engineRunning := false, main := .notifyAll }
  | notifyAll (here : program.main = .notifyAll) :
      MainStep program { program with
        execution := program.execution.wake, main := .joinEngine }
  | joinEngine (here : program.main = .joinEngine)
      (joined : program.execution = .returned) :
      MainStep program { program with main := .returned }

/-- The steps of `simulateMarketData`, those inside `onTick` included. -/
inductive MarketStep (program : Application) : Application → Prop
  | whileTest (here : program.market = .whileTest) :
      MarketStep program { program with
        market :=
          if program.simulatorRunning ∧
              program.simulator.tickCount < MarketSimulator.maxTicks then
            .publishTick
          else .returned }
  | publishTick (here : program.market = .publishTick) (round : Round)
      (bot : Bot)
      (published : program.bot.publishTick
        (simulatedRound program.simulator.basePrice round.draws
          round.timestamp).2.1 = some bot) :
      MarketStep program { program with
        bot
        simulator := { program.simulator with
          basePrice := (simulatedRound program.simulator.basePrice round.draws
            round.timestamp).1 }
        market := .publishing (simulatedRound program.simulator.basePrice
          round.draws round.timestamp).2.2 }
  | listener (book : OrderBook) (here : program.market = .publishing book)
      (action : BotAction) (bot : Bot)
      (calls : action = .onTick ∨ action = .placeOrder ∨ action = .returnOnTick)
      (moved : program.bot.step action = some bot) :
      MarketStep program { program with bot }
  | submitOrder (book : OrderBook) (here : program.market = .publishing book)
      (unlocked : program.execution ≠ .blocking) (bot : Bot)
      (moved : program.bot.submitOrder = some bot) :
      MarketStep program { program with bot, market := .notifying book }
  | notifyOne (book : OrderBook) (here : program.market = .notifying book) :
      MarketStep program { program with
        execution := program.execution.wake, market := .publishing book }
  | returnPublishTick (book : OrderBook)
      (here : program.market = .publishing book) (bot : Bot)
      (moved : program.bot.returnPublishTick = some bot) :
      MarketStep program { program with bot, market := .publishOrderBook book }
  | publishOrderBook (book : OrderBook)
      (here : program.market = .publishOrderBook book) (bot : Bot)
      (moved : program.bot.publishOrderBook book = some bot) :
      MarketStep program { program with bot, market := .sleeping }
  | wakeUp (here : program.market = .sleeping) :
      MarketStep program { program with
        simulator := { program.simulator with
          tickCount := program.simulator.tickCount + 1 }
        market := .whileTest }

/-- The steps of `executionLoop` and of `executeOrder`. -/
inductive ExecutionStep (program : Application) : Application → Prop
  | whileTest (here : program.execution = .whileTest) :
      ExecutionStep program { program with
        execution := if program.engineRunning then .waitTest else .returned }
  | waitTest (here : program.execution = .waitTest)
      (empty : program.bot.system.executionQueue = []) :
      ExecutionStep program { program with
        execution := if program.engineRunning then .blocking else .returned }
  | block (here : program.execution = .blocking) :
      ExecutionStep program { program with execution := .blocked }
  | takeRequest (here : program.execution = .waitTest)
      (request : ExecutionRequest) (bot : Bot)
      (moved : program.bot.step (.takeRequest request) = some bot) :
      ExecutionStep program { program with bot, execution := .executing }
  | execute (here : program.execution = .executing) (action : BotAction)
      (bot : Bot)
      (calls : action = .getLatestTick ∨ action = .simulateOrderExecution ∨
        ∃ executedAt, action = .simulateTrade executedAt)
      (moved : program.bot.step action = some bot) :
      ExecutionStep program { program with bot, execution := .executing }
  | recordLatency (here : program.execution = .executing) (latency : UInt64)
      (bot : Bot) (moved : program.bot.step (.recordLatency latency) = some bot) :
      ExecutionStep program { program with bot, execution := .whileTest }

section Inversion

variable {program next : Application}

theorem mainStep_cases (stepped : program.mainStep = some next) :
    program.MainStep next := by
  unfold mainStep at stepped
  cases here : program.main with
  | setRiskLimits =>
      rw [here] at stepped
      cases stepped
      exact .setRiskLimits here
  | startEngine =>
      rw [here] at stepped
      cases stepped
      exact .startEngine here
  | subscribe =>
      rw [here] at stepped
      cases stepped
      exact .subscribe here
  | startSimulator =>
      rw [here] at stepped
      cases stepped
      exact .startSimulator here
  | printOrders =>
      rw [here] at stepped
      cases stepped
      exact .printOrders here
  | printTrades =>
      rw [here] at stepped
      cases stepped
      exact .printTrades here
  | printLatency =>
      rw [here] at stepped
      cases stepped
      exact .printLatency here
  | printHistory =>
      rw [here] at stepped
      cases stepped
      exact .printHistory here
  | printPortfolio =>
      rw [here] at stepped
      cases stepped
      exact .printPortfolio here
  | stopSimulator =>
      rw [here] at stepped
      cases stepped
      exact .stopSimulator here
  | joinSimulator =>
      simp only [here, Option.ite_none_right_eq_some] at stepped
      obtain ⟨joined, moved⟩ := stepped
      cases moved
      exact .joinSimulator here joined
  | stopEngine =>
      rw [here] at stepped
      cases stepped
      exact .stopEngine here
  | notifyAll =>
      rw [here] at stepped
      cases stepped
      exact .notifyAll here
  | joinEngine =>
      simp only [here, Option.ite_none_right_eq_some] at stepped
      obtain ⟨joined, moved⟩ := stepped
      cases moved
      exact .joinEngine here joined
  | returned =>
      rw [here] at stepped
      cases stepped

theorem listenerStep_eq_some {moved : Option Bot} :
    program.listenerStep moved = some next ↔
      ∃ book bot, program.market = .publishing book ∧ moved = some bot ∧
        next = { program with bot } := by
  unfold listenerStep
  cases program.market <;> simp [eq_comm]

theorem executeStep_eq_some {action : BotAction} {after : ExecutionPoint} :
    program.executeStep action after = some next ↔
      program.execution = .executing ∧
        ∃ bot, program.bot.step action = some bot ∧
          next = { program with bot, execution := after } := by
  simp [executeStep, eq_comm]

theorem publishTick_cases {round : Round}
    (stepped : program.publishTick round = some next) :
    program.MarketStep next := by
  simp only [publishTick, Option.ite_none_right_eq_some,
    Option.map_eq_some_iff] at stepped
  obtain ⟨here, bot, published, rfl⟩ := stepped
  exact .publishTick here round bot published

theorem submitOrder_cases (stepped : program.submitOrder = some next) :
    program.MarketStep next := by
  unfold submitOrder at stepped
  split at stepped
  next book here =>
      split at stepped
      next => contradiction
      next unlocked =>
          obtain ⟨bot, moved, rfl⟩ := Option.map_eq_some_iff.mp stepped
          exact .submitOrder book here unlocked bot moved
  next => contradiction

theorem notifyOne_cases (stepped : program.notifyOne = some next) :
    program.MarketStep next := by
  unfold notifyOne at stepped
  split at stepped
  next book here =>
      cases stepped
      exact .notifyOne book here
  next => contradiction

theorem returnPublishTick_cases
    (stepped : program.returnPublishTick = some next) :
    program.MarketStep next := by
  unfold returnPublishTick at stepped
  split at stepped
  next book here =>
      obtain ⟨bot, moved, rfl⟩ := Option.map_eq_some_iff.mp stepped
      exact .returnPublishTick book here bot moved
  next => contradiction

theorem publishOrderBook_cases (stepped : program.publishOrderBook = some next) :
    program.MarketStep next := by
  unfold publishOrderBook at stepped
  split at stepped
  next book here =>
      obtain ⟨bot, moved, rfl⟩ := Option.map_eq_some_iff.mp stepped
      exact .publishOrderBook book here bot moved
  next => contradiction

theorem advanceLoop_cases (stepped : program.advanceLoop = some next) :
    program.ExecutionStep next := by
  unfold advanceLoop at stepped
  split at stepped
  next here =>
      cases stepped
      exact .whileTest here
  next here =>
      obtain ⟨empty, moved⟩ := Option.ite_none_right_eq_some.mp stepped
      cases moved
      exact .waitTest here empty
  next here =>
      cases stepped
      exact .block here
  next => contradiction

theorem step_cases {action : ApplicationAction}
    (stepped : program.step action = some next) :
    program.MainStep next ∨ program.MarketStep next ∨
      program.ExecutionStep next ∨
      action = .wakeSpuriously ∧ program.execution = .blocked ∧
        next = { program with execution := .waitTest } := by
  cases action with
  | main => exact .inl (mainStep_cases stepped)
  | testMarket =>
      obtain ⟨here, moved⟩ := Option.ite_none_right_eq_some.mp stepped
      cases moved
      exact .inr (.inl (.whileTest here))
  | publishTick round => exact .inr (.inl (publishTick_cases stepped))
  | onTick =>
      obtain ⟨book, bot, here, moved, rfl⟩ := listenerStep_eq_some.mp stepped
      exact .inr (.inl (.listener book here .onTick bot (by simp) moved))
  | placeOrder =>
      obtain ⟨book, bot, here, moved, rfl⟩ := listenerStep_eq_some.mp stepped
      exact .inr (.inl (.listener book here .placeOrder bot (by simp) moved))
  | submitOrder => exact .inr (.inl (submitOrder_cases stepped))
  | notifyOne => exact .inr (.inl (notifyOne_cases stepped))
  | returnOnTick =>
      obtain ⟨book, bot, here, moved, rfl⟩ := listenerStep_eq_some.mp stepped
      exact .inr (.inl (.listener book here .returnOnTick bot (by simp) moved))
  | returnPublishTick => exact .inr (.inl (returnPublishTick_cases stepped))
  | publishOrderBook => exact .inr (.inl (publishOrderBook_cases stepped))
  | wakeUp =>
      obtain ⟨here, moved⟩ := Option.ite_none_right_eq_some.mp stepped
      cases moved
      exact .inr (.inl (.wakeUp here))
  | advanceLoop => exact .inr (.inr (.inl (advanceLoop_cases stepped)))
  | takeRequest request =>
      simp only [step, takeRequest, Option.ite_none_right_eq_some,
        Option.map_eq_some_iff] at stepped
      obtain ⟨here, bot, moved, rfl⟩ := stepped
      exact .inr (.inr (.inl (.takeRequest here request bot moved)))
  | getLatestTick =>
      obtain ⟨here, bot, moved, rfl⟩ := executeStep_eq_some.mp stepped
      exact .inr (.inr (.inl (.execute here _ bot (by simp) moved)))
  | simulateOrderExecution =>
      obtain ⟨here, bot, moved, rfl⟩ := executeStep_eq_some.mp stepped
      exact .inr (.inr (.inl (.execute here _ bot (by simp) moved)))
  | simulateTrade executedAt =>
      obtain ⟨here, bot, moved, rfl⟩ := executeStep_eq_some.mp stepped
      exact .inr (.inr (.inl (.execute here _ bot (by simp) moved)))
  | recordLatency latency =>
      obtain ⟨here, bot, moved, rfl⟩ := executeStep_eq_some.mp stepped
      exact .inr (.inr (.inl (.recordLatency here latency bot moved)))
  | wakeSpuriously =>
      obtain ⟨here, moved⟩ := Option.ite_none_right_eq_some.mp stepped
      cases moved
      exact .inr (.inr (.inr ⟨rfl, here, rfl⟩))

end Inversion

end Application

end TradingBot
