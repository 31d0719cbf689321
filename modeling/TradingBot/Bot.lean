import TradingBot.System
import TradingBot.Signals

namespace TradingBot

/-! The program that `main` wires: one listener subscribed to AAPL, the market
thread that publishes simulated ticks, and the execution loop. -/

/-- Where the market thread is.  From `delivering` on it is inside
`publishTick` and holds `dataMutex`; `waiting` are the listeners it has still
to notify. -/
inductive FeedStage where
  | idle
  | delivering (tick : MarketTick) (waiting : List ListenerId)
  | placing (tick : MarketTick) (order : Order) (waiting : List ListenerId)
  | submitting (tick : MarketTick) (request : ExecutionRequest)
      (waiting : List ListenerId)
  | returning (tick : MarketTick) (waiting : List ListenerId)
  deriving DecidableEq

def FeedStage.request? : FeedStage → Option ExecutionRequest
  | .submitting _ request _ => some request
  | _ => none

/-- `published` is a history variable: every tick so far, oldest first. -/
structure Bot where
  system : System
  listener : DemoStrategyListener
  feed : FeedStage
  published : List MarketTick

inductive BotAction where
  | publishTick (tick : MarketTick)
  | onTick
  | placeOrder
  | submitOrder
  | returnOnTick
  | returnPublishTick
  | publishOrderBook (book : OrderBook)
  | takeRequest (request : ExecutionRequest)
  | getLatestTick
  | simulateOrderExecution
  | simulateTrade (executedAt : Timestamp)
  | recordLatency (latency : UInt64)

namespace Bot

def publishTick (bot : Bot) (tick : MarketTick) : Option Bot :=
  if bot.feed = .idle ∧ tick.Simulated then
    some { bot with
      system := bot.system.publishTick tick
      feed := .delivering tick
        (bot.system.marketData.publishTick (fun _ => false) tick).2
      published := bot.published ++ [tick] }
  else none

/-- `onTick` of the next listener, up to `placeOrder` or to its end. -/
def onTick (bot : Bot) : Option Bot :=
  match bot.feed with
  | .delivering tick (_ :: waiting) =>
      match bot.listener.signal tick with
      | some order => some { bot with feed := .placing tick order waiting }
      | none =>
          some { bot with
            listener := bot.listener.afterTick tick
            feed := .delivering tick waiting }
  | _ => none

def placeOrder (bot : Bot) : Option Bot :=
  match bot.feed with
  | .placing tick order waiting =>
      some { bot with
        system := bot.system.placeOrder order
        feed := .submitting tick
          (requestFor (bot.system.orderManager.placeOrder order).result order
            tick.timestamp) waiting }
  | _ => none

def submitOrder (bot : Bot) : Option Bot :=
  match bot.feed with
  | .submitting tick request waiting =>
      some { bot with
        system := bot.system.submitOrder request
        feed := .returning tick waiting }
  | _ => none

def returnOnTick (bot : Bot) : Option Bot :=
  match bot.feed with
  | .returning tick waiting =>
      some { bot with
        listener := bot.listener.afterTick tick
        feed := .delivering tick waiting }
  | _ => none

def returnPublishTick (bot : Bot) : Option Bot :=
  match bot.feed with
  | .delivering _ [] => some { bot with feed := .idle }
  | _ => none

/-- The listener's `onOrderBook` does nothing. -/
def publishOrderBook (bot : Bot) (book : OrderBook) : Option Bot :=
  if bot.feed = .idle then
    some { bot with system := bot.system.publishOrderBook book }
  else none

def loopStep (bot : Bot) (next : Option System) : Option Bot :=
  next.map fun system => { bot with system }

/-- `getLatestTick` waits for `dataMutex`. -/
def getLatestTick (bot : Bot) : Option Bot :=
  if bot.feed = .idle then bot.loopStep bot.system.getLatestTick else none

def step (bot : Bot) : BotAction → Option Bot
  | .publishTick tick => bot.publishTick tick
  | .onTick => bot.onTick
  | .placeOrder => bot.placeOrder
  | .submitOrder => bot.submitOrder
  | .returnOnTick => bot.returnOnTick
  | .returnPublishTick => bot.returnPublishTick
  | .publishOrderBook book => bot.publishOrderBook book
  | .takeRequest request => bot.loopStep (bot.system.takeRequest request)
  | .getLatestTick => bot.getLatestTick
  | .simulateOrderExecution =>
      bot.loopStep bot.system.simulateOrderExecution
  | .simulateTrade executedAt =>
      bot.loopStep (bot.system.simulateTrade executedAt)
  | .recordLatency latency => bot.loopStep (bot.system.recordLatency latency)

/-- `marketData->subscribe("AAPL", strategyListener)`. -/
def init : Bot where
  system := System.init (MarketDataHandler.init.subscribe "AAPL" 0)
  listener := DemoStrategyListener.init
  feed := .idle
  published := []

def machine : Library.Machine Bot BotAction where
  init := init
  step := step

section Inversion

variable {bot next : Bot}

theorem publishTick_eq_some {tick : MarketTick} :
    bot.publishTick tick = some next ↔
      bot.feed = .idle ∧ tick.Simulated ∧
        next = { bot with
          system := bot.system.publishTick tick
          feed := .delivering tick
            (bot.system.marketData.publishTick (fun _ => false) tick).2
          published := bot.published ++ [tick] } := by
  unfold publishTick
  split
  next enabled => simp [enabled.1, enabled.2, eq_comm]
  next disabled =>
      simp only [reduceCtorEq, false_iff]
      exact fun enabled => disabled ⟨enabled.1, enabled.2.1⟩

theorem onTick_eq_some :
    bot.onTick = some next ↔
      ∃ tick listener waiting,
        bot.feed = .delivering tick (listener :: waiting) ∧
        ((∃ order, bot.listener.signal tick = some order ∧
            next = { bot with feed := .placing tick order waiting }) ∨
          bot.listener.signal tick = none ∧
            next = { bot with
              listener := bot.listener.afterTick tick
              feed := .delivering tick waiting }) := by
  unfold onTick
  split
  next tick listener waiting stage =>
      rw [stage]
      cases signalled : bot.listener.signal tick <;>
        simp [signalled, eq_comm, and_assoc]
  next other =>
      simp only [reduceCtorEq, false_iff]
      intro enabled
      obtain ⟨tick, listener, waiting, stage, _⟩ := enabled
      exact other tick listener waiting stage

theorem placeOrder_eq_some :
    bot.placeOrder = some next ↔
      ∃ tick order waiting, bot.feed = .placing tick order waiting ∧
        next = { bot with
          system := bot.system.placeOrder order
          feed := .submitting tick
            (requestFor (bot.system.orderManager.placeOrder order).result order
              tick.timestamp) waiting } := by
  unfold placeOrder
  cases bot.feed <;> simp [eq_comm]

theorem submitOrder_eq_some :
    bot.submitOrder = some next ↔
      ∃ tick request waiting, bot.feed = .submitting tick request waiting ∧
        next = { bot with
          system := bot.system.submitOrder request
          feed := .returning tick waiting } := by
  unfold submitOrder
  cases bot.feed <;> simp [eq_comm]

theorem returnOnTick_eq_some :
    bot.returnOnTick = some next ↔
      ∃ tick waiting, bot.feed = .returning tick waiting ∧
        next = { bot with
          listener := bot.listener.afterTick tick
          feed := .delivering tick waiting } := by
  unfold returnOnTick
  cases bot.feed <;> simp [eq_comm]

theorem returnPublishTick_eq_some :
    bot.returnPublishTick = some next ↔
      ∃ tick, bot.feed = .delivering tick [] ∧
        next = { bot with feed := .idle } := by
  unfold returnPublishTick
  split
  next tick stage => simp [stage, eq_comm]
  next other =>
      simp only [reduceCtorEq, false_iff]
      intro enabled
      obtain ⟨tick, stage, _⟩ := enabled
      exact other tick stage

theorem publishOrderBook_eq_some {book : OrderBook} :
    bot.publishOrderBook book = some next ↔
      bot.feed = .idle ∧
        next = { bot with system := bot.system.publishOrderBook book } := by
  unfold publishOrderBook
  split
  next idle => simp [idle, eq_comm]
  next busy => simp [busy]

theorem loopStep_eq_some {stepped : Option System} :
    bot.loopStep stepped = some next ↔
      ∃ system, stepped = some system ∧ next = { bot with system } := by
  cases stepped <;> simp [loopStep, eq_comm]

theorem getLatestTick_eq_some :
    bot.getLatestTick = some next ↔
      bot.feed = .idle ∧
        ∃ system, bot.system.getLatestTick = some system ∧
          next = { bot with system } := by
  unfold getLatestTick
  split
  next idle => simp [idle, loopStep_eq_some]
  next busy => simp [busy]

end Inversion

/-- Every step of the bot leaves the shared objects alone or is a step of
theirs. -/
theorem step_projects {bot next : Bot} {action : BotAction}
    (stepped : bot.step action = some next) :
    next.system = bot.system ∨
      ∃ shared, bot.system.step shared = some next.system := by
  cases action with
  | publishTick tick =>
      obtain ⟨_, _, rfl⟩ := publishTick_eq_some.mp stepped
      exact .inr ⟨.publishTick tick, rfl⟩
  | onTick =>
      obtain ⟨_, _, _, _, ⟨_, _, rfl⟩ | ⟨_, rfl⟩⟩ := onTick_eq_some.mp stepped
      · exact .inl rfl
      · exact .inl rfl
  | placeOrder =>
      obtain ⟨_, order, _, _, rfl⟩ := placeOrder_eq_some.mp stepped
      exact .inr ⟨.placeOrder order, rfl⟩
  | submitOrder =>
      obtain ⟨_, request, _, _, rfl⟩ := submitOrder_eq_some.mp stepped
      exact .inr ⟨.submitOrder request, rfl⟩
  | returnOnTick =>
      obtain ⟨_, _, _, rfl⟩ := returnOnTick_eq_some.mp stepped
      exact .inl rfl
  | returnPublishTick =>
      obtain ⟨_, _, rfl⟩ := returnPublishTick_eq_some.mp stepped
      exact .inl rfl
  | publishOrderBook book =>
      obtain ⟨_, rfl⟩ := publishOrderBook_eq_some.mp stepped
      exact .inr ⟨.publishOrderBook book, rfl⟩
  | takeRequest request =>
      obtain ⟨system, moved, rfl⟩ := loopStep_eq_some.mp stepped
      exact .inr ⟨.takeRequest request, moved⟩
  | getLatestTick =>
      obtain ⟨_, system, moved, rfl⟩ := getLatestTick_eq_some.mp stepped
      exact .inr ⟨.getLatestTick, moved⟩
  | simulateOrderExecution =>
      obtain ⟨system, moved, rfl⟩ := loopStep_eq_some.mp stepped
      exact .inr ⟨.simulateOrderExecution, moved⟩
  | simulateTrade executedAt =>
      obtain ⟨system, moved, rfl⟩ := loopStep_eq_some.mp stepped
      exact .inr ⟨.simulateTrade executedAt, moved⟩
  | recordLatency latency =>
      obtain ⟨system, moved, rfl⟩ := loopStep_eq_some.mp stepped
      exact .inr ⟨.recordLatency latency, moved⟩

/-- A run of the bot is, on the shared objects, a run of theirs. -/
theorem system_reachable {bot : Bot} (reached : machine.Reachable bot) :
    (System.machine init.system.marketData).Reachable bot.system := by
  apply Library.Machine.reachable_preserves (fun later =>
    (System.machine init.system.marketData).Reachable later.system) _ reached
  · intro earlier action later holds stepped
    rcases step_projects stepped with same | ⟨shared, moved⟩
    · rw [same]
      exact holds
    · exact holds.step shared moved
  · exact Library.Machine.Reachable.init

end Bot

end TradingBot
