import TradingBot.Application.Exit

namespace TradingBot

open DemoStrategyListener

/-! What `main` prints while the other threads go on. -/

/-- A portfolio that no trade has reached. -/
def Portfolio.untouched (totalTrades : UInt64) : Portfolio where
  totalBalance := 100000
  availableBalance := 100000
  totalPnL := 0
  realizedPnL := 0
  unrealizedPnL := 0
  positions := []
  totalTrades := totalTrades

/-- What has been printed, against the orders and the trades made since. -/
structure Report.Consistent (report : Report) (manager : OrderManager) :
    Prop where
  orders : ∀ count ∈ report.totalOrdersPlaced,
    count.toNat ≤ manager.totalOrdersPlaced.toNat
  trades : ∀ count ∈ report.totalTradesExecuted,
    count.toNat ≤ manager.trades.length ∧
      ∀ recent ∈ report.recentTrades, count.toNat ≤ recent.length
  recent : ∀ recent ∈ report.recentTrades, recent <+: manager.trades
  portfolio : ∀ portfolio ∈ report.portfolio,
    portfolio = .untouched portfolio.totalTrades ∧
      portfolio.totalTrades.toNat ≤ manager.trades.length ∧
      ∀ recent ∈ report.recentTrades,
        recent.length ≤ portfolio.totalTrades.toNat

theorem Report.Consistent.mono {report : Report}
    {bot next : Bot} (consistent : report.Consistent bot.system.orderManager)
    (grows : bot.Grows next) : report.Consistent next.system.orderManager where
  orders count printed := (consistent.orders count printed).trans grows.orders
  trades count printed :=
    ⟨(consistent.trades count printed).1.trans grows.trades.length_le,
      (consistent.trades count printed).2⟩
  recent recent printed := (consistent.recent recent printed).trans grows.trades
  portfolio portfolio printed :=
    ⟨(consistent.portfolio portfolio printed).1,
      (consistent.portfolio portfolio printed).2.1.trans
        grows.trades.length_le,
      (consistent.portfolio portfolio printed).2.2⟩

theorem untouched_snapshot (totalTrades : UInt64) :
    RiskManager.init.getPortfolioSnapshot .undisturbed totalTrades =
      .untouched totalTrades := by
  have unrealized : RiskManager.init.getUnrealizedPnL = 0 := by
    rfl
  have positions : RiskManager.init.getAllPositions = [] := by
    simp [RiskManager.getAllPositions, RiskManager.init]
  simp only [RiskManager.getPortfolioSnapshot, SnapshotGaps.undisturbed,
    RiskManager.run_nil, unrealized, positions, RiskManager.getRealizedPnL]
  simp [RiskManager.init, Portfolio.untouched]

namespace Application

/-- What `main` has printed by now, and that it is the only caller of the risk
manager. -/
structure Printed (program : Application) : Prop where
  riskManager : program.riskManager = RiskManager.init
  orders : program.report.totalOrdersPlaced.isSome ↔
    program.main.remaining ≤ 9
  trades : program.report.totalTradesExecuted.isSome ↔
    program.main.remaining ≤ 8
  latency : program.report.averageLatency.isSome ↔ program.main.remaining ≤ 7
  recent : program.report.recentTrades.isSome ↔ program.main.remaining ≤ 6
  portfolio : program.report.portfolio.isSome ↔ program.main.remaining ≤ 5

theorem Printed.mainStep {program next : Application} (printed : program.Printed)
    (stepped : program.MainStep next) : next.Printed := by
  obtain ⟨riskManager, orders, trades, latency, recent, portfolio⟩ := printed
  cases stepped with
  | setRiskLimits here =>
      refine ⟨?_, ?_, ?_, ?_, ?_, ?_⟩
      · rw [riskManager]
        rfl
      all_goals simp_all [MainPoint.remaining]
  | _ => constructor <;> simp_all [MainPoint.remaining]

/-- A step of another thread, as `main` sees it. -/
structure Elsewhere (program next : Application) : Prop where
  riskManager : next.riskManager = program.riskManager
  main : next.main = program.main
  report : next.report = program.report
  bot : next.bot = program.bot ∨
    ∃ action, program.bot.step action = some next.bot

theorem MarketStep.elsewhere {program next : Application}
    (stepped : program.MarketStep next) : program.Elsewhere next := by
  cases stepped with
  | whileTest => exact ⟨rfl, rfl, rfl, .inl rfl⟩
  | publishTick _ round bot published =>
      exact ⟨rfl, rfl, rfl, .inr ⟨.publishTick _, published⟩⟩
  | listener _ _ action bot _ moved =>
      exact ⟨rfl, rfl, rfl, .inr ⟨action, moved⟩⟩
  | submitOrder _ _ _ bot moved =>
      exact ⟨rfl, rfl, rfl, .inr ⟨.submitOrder, moved⟩⟩
  | notifyOne => exact ⟨rfl, rfl, rfl, .inl rfl⟩
  | returnPublishTick _ _ bot moved =>
      exact ⟨rfl, rfl, rfl, .inr ⟨.returnPublishTick, moved⟩⟩
  | publishOrderBook book _ bot moved =>
      exact ⟨rfl, rfl, rfl, .inr ⟨.publishOrderBook book, moved⟩⟩
  | wakeUp => exact ⟨rfl, rfl, rfl, .inl rfl⟩

theorem ExecutionStep.elsewhere {program next : Application}
    (stepped : program.ExecutionStep next) : program.Elsewhere next := by
  cases stepped with
  | whileTest => exact ⟨rfl, rfl, rfl, .inl rfl⟩
  | waitTest => exact ⟨rfl, rfl, rfl, .inl rfl⟩
  | block => exact ⟨rfl, rfl, rfl, .inl rfl⟩
  | takeRequest _ request bot moved =>
      exact ⟨rfl, rfl, rfl, .inr ⟨.takeRequest request, moved⟩⟩
  | execute _ action bot _ moved =>
      exact ⟨rfl, rfl, rfl, .inr ⟨action, moved⟩⟩
  | recordLatency _ latency bot moved =>
      exact ⟨rfl, rfl, rfl, .inr ⟨.recordLatency latency, moved⟩⟩

theorem Printed.elsewhere {program next : Application} (printed : program.Printed)
    (elsewhere : program.Elsewhere next) : next.Printed where
  riskManager := elsewhere.riskManager.trans printed.riskManager
  orders := by
    rw [elsewhere.report, elsewhere.main]
    exact printed.orders
  trades := by
    rw [elsewhere.report, elsewhere.main]
    exact printed.trades
  latency := by
    rw [elsewhere.report, elsewhere.main]
    exact printed.latency
  recent := by
    rw [elsewhere.report, elsewhere.main]
    exact printed.recent
  portfolio := by
    rw [elsewhere.report, elsewhere.main]
    exact printed.portfolio

theorem Phased.few {program : Application} (phased : program.Phased) :
    program.bot.system.orderManager.totalOrdersPlaced.toNat ≤ maxTrades := by
  have wired := phased.wired
  split at wired
  next =>
      rw [Bot.totalOrdersPlaced_toNat wired]
      exact length_signals_le _
  next =>
      rw [wired]
      exact Nat.zero_le _

theorem Phased.totalTrades {program : Application} (phased : program.Phased)
    (wiredBy : program.main.remaining ≤ 11) :
    program.bot.system.orderManager.totalTradesExecuted.toNat =
        program.bot.system.orderManager.trades.length ∧
      program.bot.system.orderManager.trades.length ≤ maxPrintedTrades := by
  have wired := phased.wired
  rw [if_pos wiredBy] at wired
  exact ⟨Bot.totalTradesExecuted_toNat wired,
    (Bot.length_trades_le wired).trans (length_signals_le _)⟩

/-- A statement of `main` prints what has been counted by then. -/
theorem consistent_mainStep {program next : Application} (phased : program.Phased)
    (printed : program.Printed)
    (consistent : program.report.Consistent program.bot.system.orderManager)
    (stepped : program.MainStep next) :
    next.report.Consistent next.bot.system.orderManager := by
  obtain ⟨orders, trades, recent, portfolio⟩ := consistent
  cases stepped with
  | printOrders here =>
      refine ⟨?_, trades, recent, portfolio⟩
      intro count same
      cases same
      exact le_rfl
  | printTrades here =>
      have total := (phased.totalTrades (by simp [here, MainPoint.remaining])).1
      have unprinted : program.report.recentTrades = none := by
        simpa [here, MainPoint.remaining] using printed.recent
      refine ⟨orders, ?_, recent, portfolio⟩
      intro count same
      cases same
      refine ⟨total.le, ?_⟩
      simp [unprinted]
  | printHistory here =>
      obtain ⟨total, few⟩ := phased.totalTrades
        (by simp [here, MainPoint.remaining])
      have unprinted : program.report.portfolio = none := by
        simpa [here, MainPoint.remaining] using printed.portfolio
      have whole : program.bot.system.orderManager.getTradeHistory.take
          maxPrintedTrades = program.bot.system.orderManager.trades :=
        List.take_of_length_le few
      refine ⟨orders, ?_, ?_, by simp [unprinted]⟩
      · intro count same
        refine ⟨(trades count same).1, ?_⟩
        intro listed shown
        cases shown
        rw [whole]
        exact (trades count same).1
      · intro listed shown
        cases shown
        rw [whole]
  | printPortfolio here =>
      obtain ⟨total, few⟩ := phased.totalTrades
        (by simp [here, MainPoint.remaining])
      refine ⟨orders, trades, recent, ?_⟩
      intro snapshot same
      cases same
      rw [printed.riskManager, untouched_snapshot]
      refine ⟨rfl, total.le, ?_⟩
      intro listed shown
      exact (recent listed shown).length_le.trans total.ge
  | _ => exact ⟨orders, trades, recent, portfolio⟩

/-- A run in which `main` makes a call from a state of which something
holds. -/
def CallsFrom (actions : List ApplicationAction) (point : MainPoint)
    (holds : Application → Prop) : Prop :=
  ∃ earlier action later moment after,
    actions = earlier ++ action :: later ∧
      machine.run init earlier = some moment ∧
      machine.step moment action = some after ∧
      moment.main = point ∧ after.main ≠ point ∧ holds moment

/-- Each line is what there was to print at the moment of its call: all orders,
all trades, and the whole trade history. -/
structure Timely (report : Report) (actions : List ApplicationAction) :
    Prop where
  orders : ∀ count ∈ report.totalOrdersPlaced,
    CallsFrom actions .printOrders fun moment =>
      count = moment.bot.system.orderManager.totalOrdersPlaced
  trades : ∀ count ∈ report.totalTradesExecuted,
    CallsFrom actions .printTrades fun moment =>
      count.toNat = moment.bot.system.orderManager.trades.length
  latency : ∀ latency ∈ report.averageLatency,
    CallsFrom actions .printLatency fun moment =>
      latency = moment.bot.system.stats.getAverageLatency
  recent : ∀ recent ∈ report.recentTrades,
    CallsFrom actions .printHistory fun moment =>
      recent = moment.bot.system.orderManager.trades
  portfolio : ∀ portfolio ∈ report.portfolio,
    CallsFrom actions .printPortfolio fun moment =>
      portfolio.totalTrades.toNat =
        moment.bot.system.orderManager.trades.length

theorem CallsFrom.concat {actions : List ApplicationAction}
    {point : MainPoint} {holds : Application → Prop}
    (calls : CallsFrom actions point holds) (action : ApplicationAction) :
    CallsFrom (actions ++ [action]) point holds := by
  obtain ⟨earlier, own, later, moment, after, rfl, rest⟩ := calls
  exact ⟨earlier, own, later ++ [action], moment, after, by simp, rest⟩

theorem callsFrom_last {actions : List ApplicationAction}
    {action : ApplicationAction} {program next : Application}
    {point : MainPoint} {holds : Application → Prop}
    (ran : machine.run init actions = some program)
    (stepped : machine.step program action = some next)
    (here : program.main = point) (left : next.main ≠ point)
    (held : holds program) : CallsFrom (actions ++ [action]) point holds :=
  ⟨actions, action, [], program, next, rfl, ran, stepped, here, left, held⟩

theorem Timely.concat {report : Report} {actions : List ApplicationAction}
    (timely : Timely report actions) (action : ApplicationAction) :
    Timely report (actions ++ [action]) where
  orders count printed := (timely.orders count printed).concat action
  trades count printed := (timely.trades count printed).concat action
  latency latency printed := (timely.latency latency printed).concat action
  recent recent printed := (timely.recent recent printed).concat action
  portfolio portfolio printed :=
    (timely.portfolio portfolio printed).concat action

theorem Timely.mainStep {actions : List ApplicationAction}
    {action : ApplicationAction} {program next : Application}
    (timely : Timely program.report actions) (phased : program.Phased)
    (ran : machine.run init actions = some program)
    (stepped : machine.step program action = some next)
    (moved : program.MainStep next) :
    Timely next.report (actions ++ [action]) := by
  obtain ⟨orders, trades, latency, recent, portfolio⟩ := timely.concat action
  cases moved with
  | printOrders here =>
      refine ⟨?_, trades, latency, recent, portfolio⟩
      intro count same
      cases same
      exact callsFrom_last ran stepped here (by simp) rfl
  | printTrades here =>
      have total := (phased.totalTrades (by simp [here, MainPoint.remaining])).1
      refine ⟨orders, ?_, latency, recent, portfolio⟩
      intro count same
      cases same
      exact callsFrom_last ran stepped here (by simp) total
  | printLatency here =>
      refine ⟨orders, trades, ?_, recent, portfolio⟩
      intro average same
      cases same
      exact callsFrom_last ran stepped here (by simp) rfl
  | printHistory here =>
      have few := (phased.totalTrades (by simp [here, MainPoint.remaining])).2
      refine ⟨orders, trades, latency, ?_, portfolio⟩
      intro listed same
      cases same
      exact callsFrom_last ran stepped here (by simp)
        (List.take_of_length_le few)
  | printPortfolio here =>
      have total := (phased.totalTrades (by simp [here, MainPoint.remaining])).1
      refine ⟨orders, trades, latency, recent, ?_⟩
      intro snapshot same
      cases same
      exact callsFrom_last ran stepped here (by simp) total
  | _ => exact ⟨orders, trades, latency, recent, portfolio⟩

structure Reported (program : Application) (actions : List ApplicationAction) :
    Prop where
  ran : machine.run init actions = some program
  phased : program.Phased
  printed : program.Printed
  consistent : program.report.Consistent program.bot.system.orderManager
  timely : Timely program.report actions

theorem Reported.elsewhere {program next : Application}
    {actions : List ApplicationAction} (reported : program.Reported actions)
    {action : ApplicationAction}
    (stepped : machine.step program action = some next)
    (elsewhere : program.Elsewhere next) :
    next.Reported (actions ++ [action]) := by
  have grows : program.bot.Grows next.bot := by
    rcases elsewhere.bot with same | ⟨action, moved⟩
    · rw [same]
      exact Bot.Grows.refl _
    · exact Bot.grows_step reported.phased.few moved
  exact
    { ran := Library.Machine.run_concat_eq_some.mpr ⟨_, reported.ran, stepped⟩
      phased := reported.phased.step stepped
      printed := reported.printed.elsewhere elsewhere
      consistent := by
        rw [elsewhere.report]
        exact reported.consistent.mono grows
      timely := by
        rw [elsewhere.report]
        exact reported.timely.concat action }

theorem Reported.step {program next : Application}
    {actions : List ApplicationAction} (reported : program.Reported actions)
    {action : ApplicationAction}
    (stepped : machine.step program action = some next) :
    next.Reported (actions ++ [action]) := by
  rcases step_cases stepped with moved | moved | moved | ⟨_, _, rfl⟩
  · exact
      { ran := Library.Machine.run_concat_eq_some.mpr ⟨_, reported.ran, stepped⟩
        phased := reported.phased.step stepped
        printed := reported.printed.mainStep moved
        consistent := consistent_mainStep reported.phased reported.printed
          reported.consistent moved
        timely := reported.timely.mainStep reported.phased reported.ran
          stepped moved }
  · exact reported.elsewhere stepped moved.elsewhere
  · exact reported.elsewhere stepped moved.elsewhere
  · exact reported.elsewhere stepped ⟨rfl, rfl, rfl, .inl rfl⟩

end Application

end TradingBot
