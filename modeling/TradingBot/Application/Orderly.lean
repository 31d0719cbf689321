import TradingBot.Application
import TradingBot.Bot.Counters

namespace TradingBot

/-! What holds between the three threads in every reachable state. -/

/-- How many statements `main` has still to execute. -/
def MainPoint.remaining : MainPoint → Nat
  | .setRiskLimits => 14
  | .startEngine => 13
  | .subscribe => 12
  | .startSimulator => 11
  | .printOrders => 10
  | .printTrades => 9
  | .printLatency => 8
  | .printHistory => 7
  | .printPortfolio => 6
  | .stopSimulator => 5
  | .joinSimulator => 4
  | .stopEngine => 3
  | .notifyAll => 2
  | .joinEngine => 1
  | .returned => 0

namespace MarketPoint

/-- The market thread is inside `publishTick` exactly while the bot's feed is
busy. -/
def Feeds : MarketPoint → FeedStage → Prop
  | .publishing _, feed => feed ≠ .idle
  | .notifying _, feed => ∃ tick waiting, feed = .returning tick waiting
  | _, feed => feed = .idle

/-- The tick of this round is published but not counted. -/
def uncounted : MarketPoint → Nat
  | .publishing _ | .notifying _ | .publishOrderBook _ | .sleeping => 1
  | _ => 0

/-- This round has not been counted. -/
def inRound : MarketPoint → Nat
  | .publishTick => 1
  | point => point.uncounted

end MarketPoint

namespace Application

/-- The two threads against where `main` is. -/
structure Phased (program : Application) : Prop where
  wired : if program.main.remaining ≤ 11 then
    Bot.machine.Reachable program.bot else program.bot = Bot.unsubscribed
  simulatorRunning : program.simulatorRunning = true ↔
    5 ≤ program.main.remaining ∧ program.main.remaining ≤ 10
  marketAbsent : program.market = .absent ↔ 11 ≤ program.main.remaining
  marketReturned : program.main.remaining ≤ 3 → program.market = .returned
  engineRunning : program.engineRunning = true ↔
    3 ≤ program.main.remaining ∧ program.main.remaining ≤ 12
  executionAbsent : program.execution = .absent ↔ 13 ≤ program.main.remaining
  executionReturned : program.execution = .returned →
    program.main.remaining ≤ 2
  executionJoined : program.main.remaining = 0 → program.execution = .returned

/-- The two threads against the objects they work on. -/
structure Synchronized (program : Application) : Prop where
  feeds : program.market.Feeds program.bot.feed
  executes : program.bot.system.loop = .waiting ↔
    program.execution ≠ .executing
  counted : program.bot.published.length =
    program.simulator.tickCount + program.market.uncounted
  bounded : program.simulator.tickCount + program.market.inRound ≤
    MarketSimulator.maxTicks
  blocking : program.execution = .blocking →
    program.bot.system.executionQueue = []
  blocked : program.execution = .blocked →
    program.bot.system.executionQueue = [] ∨
      ∃ book, program.market = .notifying book

theorem wake_eq_absent {point : ExecutionPoint} :
    point.wake = .absent ↔ point = .absent := by
  cases point <;> simp [ExecutionPoint.wake]

theorem wake_eq_returned {point : ExecutionPoint} :
    point.wake = .returned ↔ point = .returned := by
  cases point <;> simp [ExecutionPoint.wake]

theorem phased_init : init.Phased := by
  constructor <;> simp [init, MainPoint.remaining]

theorem subscribe_unsubscribed : Bot.unsubscribed.subscribe = Bot.init := rfl

theorem Phased.mainStep {program next : Application} (phased : program.Phased)
    (stepped : program.MainStep next) : next.Phased := by
  obtain ⟨wired, simulatorRunning, marketAbsent, marketReturned, engineRunning,
    executionAbsent, executionReturned, executionJoined⟩ := phased
  cases stepped with
  | subscribe here =>
      simp only [here, MainPoint.remaining] at wired
      constructor <;> simp_all [MainPoint.remaining]
      rw [subscribe_unsubscribed]
      exact Library.Machine.Reachable.init
  | _ =>
      -- no other statement touches the bot, and each leaves the threads as the
      -- next one finds them
      constructor <;> simp_all [MainPoint.remaining, wake_eq_absent]

/-- A step of another thread leaves `main` and its two flags alone. -/
theorem Phased.move {program : Application} (phased : program.Phased) {bot : Bot}
    {simulator : MarketSimulator} {market : MarketPoint}
    {execution : ExecutionPoint}
    (wired : if program.main.remaining ≤ 11 then
      Bot.machine.Reachable bot else bot = Bot.unsubscribed)
    (marketAbsent : market = .absent ↔ program.market = .absent)
    (marketReturned : program.market = .returned → market = .returned)
    (executionAbsent : execution = .absent ↔ program.execution = .absent)
    (executionReturned : execution = .returned →
      program.execution = .returned ∨ program.engineRunning = false)
    (executionJoined : program.execution = .returned →
      execution = .returned) :
    Phased { program with bot, simulator, market, execution } where
  wired := wired
  simulatorRunning := phased.simulatorRunning
  marketAbsent := marketAbsent.trans phased.marketAbsent
  marketReturned late := marketReturned (phased.marketReturned late)
  engineRunning := phased.engineRunning
  executionAbsent := executionAbsent.trans phased.executionAbsent
  executionReturned returned := by
    change execution = .returned at returned
    change program.main.remaining ≤ 2
    rcases executionReturned returned with already | stopped
    · exact phased.executionReturned already
    · by_contra early
      have started : ¬ 13 ≤ program.main.remaining := fun unstarted => by
        have absent := executionAbsent.mpr (phased.executionAbsent.mpr unstarted)
        rw [returned] at absent
        cases absent
      have running := phased.engineRunning.mpr ⟨by omega, by omega⟩
      rw [stopped] at running
      cases running
  executionJoined joined := executionJoined (phased.executionJoined joined)

theorem Phased.reachable {program : Application} (phased : program.Phased)
    (alive : program.market ≠ .absent) : Bot.machine.Reachable program.bot := by
  have started : ¬ 11 ≤ program.main.remaining :=
    fun early => alive (phased.marketAbsent.mpr early)
  have wired := phased.wired
  rwa [if_pos (by omega)] at wired

theorem Phased.publish {program : Application} (phased : program.Phased)
    {bot : Bot} {simulator : MarketSimulator} {market : MarketPoint}
    (alive : program.market ≠ .absent) (unfinished : program.market ≠ .returned)
    (reached : Bot.machine.Reachable bot) (kept : market ≠ .absent) :
    Phased { program with bot, simulator, market } := by
  have started : ¬ 11 ≤ program.main.remaining :=
    fun early => alive (phased.marketAbsent.mpr early)
  refine phased.move ?_ ?_ ?_ Iff.rfl .inl id
  · rwa [if_pos (by omega)]
  · simp [kept, alive]
  · exact fun returned => absurd returned unfinished

theorem Phased.marketStep {program next : Application} (phased : program.Phased)
    (stepped : program.MarketStep next) : next.Phased := by
  cases stepped with
  | whileTest here =>
      have reached := phased.reachable (by simp [here])
      refine phased.publish (by simp [here]) (by simp [here]) reached ?_
      split <;> simp
  | publishTick here round bot published =>
      have reached := phased.reachable (by simp [here])
      exact phased.publish (by simp [here]) (by simp [here])
        (reached.step (.publishTick _) published) (by simp)
  | listener book here action bot calls moved =>
      have reached := phased.reachable (by simp [here])
      exact phased.publish (by simp [here]) (by simp [here])
        (reached.step action moved) (by simp [here])
  | submitOrder book here unlocked bot moved =>
      have reached := phased.reachable (by simp [here])
      exact phased.publish (by simp [here]) (by simp [here])
        (reached.step .submitOrder moved) (by simp)
  | notifyOne book here =>
      refine phased.move phased.wired (by simp [here]) (by simp [here])
        wake_eq_absent ?_ wake_eq_returned.mpr
      exact fun returned => .inl (wake_eq_returned.mp returned)
  | returnPublishTick book here bot moved =>
      have reached := phased.reachable (by simp [here])
      exact phased.publish (by simp [here]) (by simp [here])
        (reached.step .returnPublishTick moved) (by simp)
  | publishOrderBook book here bot moved =>
      have reached := phased.reachable (by simp [here])
      exact phased.publish (by simp [here]) (by simp [here])
        (reached.step (.publishOrderBook book) moved) (by simp)
  | wakeUp here =>
      have reached := phased.reachable (by simp [here])
      exact phased.publish (by simp [here]) (by simp [here]) reached (by simp)

/-- Before `subscribe` there is nothing to take. -/
theorem Phased.execute {program : Application} (phased : program.Phased)
    {bot : Bot} {action : BotAction}
    (idle : Bot.unsubscribed.step action = none)
    (moved : program.bot.step action = some bot) :
    if program.main.remaining ≤ 11 then
      Bot.machine.Reachable bot else bot = Bot.unsubscribed := by
  have wired := phased.wired
  split at wired
  next late =>
      rw [if_pos late]
      exact wired.step action moved
  next early =>
      rw [wired, idle] at moved
      cases moved

theorem Phased.executionStep {program next : Application}
    (phased : program.Phased) (stepped : program.ExecutionStep next) :
    next.Phased := by
  cases stepped with
  | whileTest here =>
      refine phased.move phased.wired Iff.rfl id ?_ ?_ (by simp [here])
      · rw [here]
        split <;> simp
      · intro returned
        split at returned
        next => cases returned
        next stopped => exact .inr (Bool.eq_false_iff.mpr stopped)
  | waitTest here empty =>
      refine phased.move phased.wired Iff.rfl id ?_ ?_ (by simp [here])
      · rw [here]
        split <;> simp
      · intro returned
        split at returned
        next => cases returned
        next stopped => exact .inr (Bool.eq_false_iff.mpr stopped)
  | block here =>
      exact phased.move phased.wired Iff.rfl id (by simp [here]) (by simp)
        (by simp [here])
  | takeRequest here request bot moved =>
      have wired := phased.execute (by
        simp [Bot.step, Bot.unsubscribed, System.takeRequest, System.init, IsTop,
          Bot.loopStep]) moved
      exact phased.move wired Iff.rfl id (by simp [here]) (by simp)
        (by simp [here])
  | execute here action bot calls moved =>
      have idle : Bot.unsubscribed.step action = none := by
        rcases calls with rfl | rfl | ⟨executedAt, rfl⟩ <;> rfl
      exact phased.move (phased.execute idle moved) Iff.rfl id (by simp [here])
        (by simp) (by simp [here])
  | recordLatency here latency bot moved =>
      exact phased.move (phased.execute rfl moved) Iff.rfl id (by simp [here])
        (by simp) (by simp [here])

theorem Phased.step {program next : Application} {action : ApplicationAction}
    (phased : program.Phased) (stepped : program.step action = some next) :
    next.Phased := by
  rcases step_cases stepped with moved | moved | moved | ⟨_, here, rfl⟩
  · exact phased.mainStep moved
  · exact phased.marketStep moved
  · exact phased.executionStep moved
  · exact phased.move phased.wired Iff.rfl id (by simp [here]) (by simp)
      (by simp [here])

theorem wake_eq_executing {point : ExecutionPoint} :
    point.wake = .executing ↔ point = .executing := by
  cases point <;> simp [ExecutionPoint.wake]

theorem wake_eq_blocking {point : ExecutionPoint} :
    point.wake = .blocking ↔ point = .blocking := by
  cases point <;> simp [ExecutionPoint.wake]

theorem wake_ne_blocked (point : ExecutionPoint) : point.wake ≠ .blocked := by
  cases point <;> simp [ExecutionPoint.wake]

theorem synchronized_init : init.Synchronized where
  feeds := rfl
  executes := by simp [init, Bot.unsubscribed, System.init]
  counted := rfl
  bounded := Nat.zero_le _
  blocking _ := rfl
  blocked _ := .inl rfl

theorem Synchronized.wake {program : Application}
    (synchronized : program.Synchronized) (market : MarketPoint)
    (feeds : market.Feeds program.bot.feed)
    (uncounted : market.uncounted = program.market.uncounted)
    (inRound : market.inRound = program.market.inRound) (main : MainPoint) :
    Synchronized { program with
      execution := program.execution.wake, market, main } where
  feeds := feeds
  executes := synchronized.executes.trans (not_congr wake_eq_executing).symm
  counted := uncounted ▸ synchronized.counted
  bounded := inRound ▸ synchronized.bounded
  blocking blocking := synchronized.blocking (wake_eq_blocking.mp blocking)
  blocked blocked := absurd blocked (wake_ne_blocked _)

theorem Synchronized.mainStep {program next : Application}
    (synchronized : program.Synchronized) (phased : program.Phased)
    (stepped : program.MainStep next) : next.Synchronized := by
  obtain ⟨feeds, executes, counted, bounded, blocking, blocked⟩ := synchronized
  cases stepped with
  | startEngine here =>
      have absent : program.execution = .absent :=
        phased.executionAbsent.mpr (by simp [here, MainPoint.remaining])
      rw [absent] at executes
      exact ⟨feeds, by simpa using executes, counted, bounded, by simp, by simp⟩
  | startSimulator here =>
      have absent : program.market = .absent :=
        phased.marketAbsent.mpr (by simp [here, MainPoint.remaining])
      rw [absent] at feeds counted bounded
      refine ⟨feeds, executes, counted, bounded, blocking, fun waits => .inl ?_⟩
      rcases blocked waits with empty | ⟨book, notifying⟩
      · exact empty
      · rw [absent] at notifying
        cases notifying
  | notifyAll here =>
      have synchronized : program.Synchronized :=
        ⟨feeds, executes, counted, bounded, blocking, blocked⟩
      exact synchronized.wake program.market feeds rfl rfl .joinEngine
  | _ => exact ⟨feeds, executes, counted, bounded, blocking, blocked⟩

/-- The loop and its queue are not the listener's. -/
theorem listener_frame {bot next : Bot} {action : BotAction}
    (calls : action = .onTick ∨ action = .placeOrder ∨ action = .returnOnTick)
    (moved : bot.step action = some next) :
    next.feed ≠ .idle ∧ next.published = bot.published ∧
      next.system.loop = bot.system.loop ∧
      next.system.executionQueue = bot.system.executionQueue := by
  rcases calls with rfl | rfl | rfl
  · obtain ⟨_, _, _, _, ⟨_, _, rfl⟩ | ⟨_, rfl⟩⟩ := Bot.onTick_eq_some.mp moved
    · exact ⟨by simp, rfl, rfl, rfl⟩
    · exact ⟨by simp, rfl, rfl, rfl⟩
  · obtain ⟨_, _, _, _, rfl⟩ := Bot.placeOrder_eq_some.mp moved
    exact ⟨by simp, rfl, rfl, rfl⟩
  · obtain ⟨_, _, _, rfl⟩ := Bot.returnOnTick_eq_some.mp moved
    exact ⟨by simp, rfl, rfl, rfl⟩

/-- The feed is not the loop's. -/
theorem execute_frame {bot next : Bot} {action : BotAction}
    (calls : action = .getLatestTick ∨ action = .simulateOrderExecution ∨
      ∃ executedAt, action = .simulateTrade executedAt)
    (moved : bot.step action = some next) :
    next.feed = bot.feed ∧ next.published = bot.published ∧
      next.system.loop ≠ .waiting ∧
      next.system.executionQueue = bot.system.executionQueue := by
  rcases calls with rfl | rfl | ⟨executedAt, rfl⟩
  · obtain ⟨_, _, quoted, rfl⟩ := Bot.getLatestTick_eq_some.mp moved
    obtain ⟨_, _, rfl⟩ := System.getLatestTick_eq_some.mp quoted
    exact ⟨rfl, rfl, by simp, rfl⟩
  · obtain ⟨_, executed, rfl⟩ := Bot.loopStep_eq_some.mp moved
    obtain ⟨_, _, _, _, rfl⟩ :=
      System.simulateOrderExecution_eq_some.mp executed
    exact ⟨rfl, rfl, by simp, rfl⟩
  · obtain ⟨_, traded, rfl⟩ := Bot.loopStep_eq_some.mp moved
    obtain ⟨_, _, _, rfl⟩ := System.simulateTrade_eq_some.mp traded
    exact ⟨rfl, rfl, by simp, rfl⟩

theorem Synchronized.marketStep {program next : Application}
    (synchronized : program.Synchronized)
    (stepped : program.MarketStep next) : next.Synchronized := by
  obtain ⟨feeds, executes, counted, bounded, blocking, blocked⟩ := synchronized
  have quiet : (∀ book, program.market ≠ .notifying book) →
      program.execution = .blocked → program.bot.system.executionQueue = [] := by
    intro other waits
    rcases blocked waits with empty | ⟨book, notifying⟩
    · exact empty
    · exact absurd notifying (other book)
  cases stepped with
  | whileTest here =>
      rw [here] at feeds counted bounded
      refine ⟨?_, executes, ?_, ?_, blocking,
        fun waits => .inl (quiet (by simp [here]) waits)⟩
      · dsimp only
        split <;> exact feeds
      · dsimp only
        split <;> exact counted
      · dsimp only
        split
        next running => exact running.2
        next => exact bounded
  | publishTick here round bot published =>
      obtain ⟨_, _, rfl⟩ := Bot.publishTick_eq_some.mp published
      rw [here] at counted bounded
      refine ⟨by simp [MarketPoint.Feeds], executes, ?_, bounded, blocking,
        fun waits => .inl (quiet (by simp [here]) waits)⟩
      dsimp only
      rw [List.length_append, counted]
      rfl
  | listener book here action bot calls moved =>
      obtain ⟨busy, same, loop, queue⟩ := listener_frame calls moved
      refine ⟨?_, ?_, ?_, bounded, ?_, ?_⟩
      · dsimp only
        rw [here]
        exact busy
      · rw [loop]
        exact executes
      · rw [same]
        exact counted
      · rw [queue]
        exact blocking
      · rw [queue]
        exact fun waits => .inl (quiet (by simp [here]) waits)
  | submitOrder book here unlocked bot moved =>
      obtain ⟨tick, request, waiting, _, rfl⟩ :=
        Bot.submitOrder_eq_some.mp moved
      rw [here] at counted bounded
      exact ⟨⟨tick, waiting, rfl⟩, executes, counted, bounded,
        fun waits => absurd waits unlocked, fun _ => .inr ⟨book, rfl⟩⟩
  | notifyOne book here =>
      have synchronized : program.Synchronized :=
        ⟨feeds, executes, counted, bounded, blocking, blocked⟩
      rw [here] at feeds
      obtain ⟨tick, waiting, returning⟩ := feeds
      refine synchronized.wake (.publishing book) ?_ (by rw [here]; rfl)
        (by rw [here]; rfl) program.main
      rw [returning]
      exact FeedStage.noConfusion
  | returnPublishTick book here bot moved =>
      obtain ⟨_, _, rfl⟩ := Bot.returnPublishTick_eq_some.mp moved
      rw [here] at counted bounded
      exact ⟨rfl, executes, counted, bounded, blocking,
        fun waits => .inl (quiet (by simp [here]) waits)⟩
  | publishOrderBook book here bot moved =>
      obtain ⟨_, rfl⟩ := Bot.publishOrderBook_eq_some.mp moved
      rw [here] at feeds counted bounded
      exact ⟨feeds, executes, counted, bounded, blocking,
        fun waits => .inl (quiet (by simp [here]) waits)⟩
  | wakeUp here =>
      rw [here] at feeds counted bounded
      exact ⟨feeds, executes, counted, bounded, blocking,
        fun waits => .inl (quiet (by simp [here]) waits)⟩

theorem Synchronized.executionStep {program next : Application}
    (synchronized : program.Synchronized)
    (stepped : program.ExecutionStep next) : next.Synchronized := by
  obtain ⟨feeds, executes, counted, bounded, blocking, blocked⟩ := synchronized
  cases stepped with
  | whileTest here =>
      rw [here] at executes
      refine ⟨feeds, ?_, counted, bounded, ?_, ?_⟩ <;> dsimp only <;>
        split <;> simp_all
  | waitTest here empty =>
      rw [here] at executes
      refine ⟨feeds, ?_, counted, bounded, fun _ => empty, fun _ => .inl empty⟩
      dsimp only
      split <;> simpa using executes
  | block here =>
      rw [here] at executes
      exact ⟨feeds, by simpa using executes, counted, bounded, by simp,
        fun _ => .inl (blocking here)⟩
  | takeRequest here request bot moved =>
      obtain ⟨_, taken, rfl⟩ := Bot.loopStep_eq_some.mp moved
      obtain ⟨_, _, rfl⟩ := System.takeRequest_eq_some.mp taken
      exact ⟨feeds, by simp, counted, bounded, by simp, by simp⟩
  | execute here action bot calls moved =>
      obtain ⟨feed, same, busy, _⟩ := execute_frame calls moved
      refine ⟨?_, ?_, ?_, bounded, by simp, by simp⟩
      · rw [feed]
        exact feeds
      · simpa using busy
      · rw [same]
        exact counted
  | recordLatency here latency bot moved =>
      obtain ⟨_, recorded, rfl⟩ := Bot.loopStep_eq_some.mp moved
      obtain ⟨_, _, _, rfl⟩ := System.recordLatency_eq_some.mp recorded
      exact ⟨feeds, by simp [System.finishRequest], counted, bounded, by simp,
        by simp⟩

/-- The invariant of the program. -/
structure Orderly (program : Application) : Prop extends
  Phased program, Synchronized program

theorem Orderly.step {program next : Application} {action : ApplicationAction}
    (orderly : program.Orderly) (stepped : program.step action = some next) :
    next.Orderly := by
  refine ⟨orderly.toPhased.step stepped, ?_⟩
  rcases step_cases stepped with moved | moved | moved | ⟨_, here, rfl⟩
  · exact orderly.toSynchronized.mainStep orderly.toPhased moved
  · exact orderly.toSynchronized.marketStep moved
  · exact orderly.toSynchronized.executionStep moved
  · have executes := orderly.executes
    rw [here] at executes
    exact ⟨orderly.feeds, by simpa using executes, orderly.counted,
      orderly.bounded, by simp, by simp⟩

theorem Orderly.of_reachable {program : Application}
    (reached : machine.Reachable program) : program.Orderly :=
  Library.Machine.reachable_preserves Orderly
    ⟨phased_init, synchronized_init⟩ reached
    fun _ _ _ orderly stepped => orderly.step stepped

end Application

end TradingBot
