import TradingBot.Application.Exit

namespace TradingBot

/-! How long the program runs, and where it can hang. -/

namespace LoopStage

def rank : LoopStage → Nat
  | .taken _ => 7
  | .quoted _ _ => 6
  | .executed _ _ => 5
  | .traded _ _ => 4
  | .waiting => 4

end LoopStage

/-- Executing a request takes the loop seven steps from its test of the
predicate to the next. -/
def ExecutionPoint.rank (loop : LoopStage) : ExecutionPoint → Nat
  | .absent | .whileTest => 3
  | .waitTest => 2
  | .blocking => 1
  | .executing => loop.rank
  | .blocked | .returned => 0

/-- Notifying one listener takes up to thirteen: three of its own, one for the
wake-up, and what its request costs the loop. -/
def FeedStage.rank : FeedStage → Nat
  | .idle => 0
  | .delivering _ waiting => 13 * waiting.length
  | .placing _ _ waiting => 13 * waiting.length + 12
  | .submitting _ _ waiting => 13 * waiting.length + 11
  | .returning _ waiting => 13 * waiting.length + 1

def MarketPoint.rank (feed : FeedStage) : MarketPoint → Nat
  | .absent | .whileTest => 18
  | .publishTick => 17
  | .publishing _ => 3 + feed.rank
  | .notifying _ => 6 + feed.rank
  | .publishOrderBook _ => 2
  | .sleeping => 1
  | .returned => 0

/-- A wake-up without a notification sends the loop back two steps. -/
def ApplicationAction.allowance : ApplicationAction → Nat
  | .wakeSpuriously => 3
  | _ => 0

namespace Application

def rank (program : Application) : Nat :=
  3 * program.main.remaining +
    (18 * (MarketSimulator.maxTicks - program.simulator.tickCount) +
      program.market.rank program.bot.feed) +
    6 * program.bot.system.executionQueue.length +
    program.execution.rank program.bot.system.loop

def maxSteps : Nat := 18063

theorem rank_init : init.rank = maxSteps := rfl

theorem rank_wake (point : ExecutionPoint) (loop : LoopStage) :
    point.wake.rank loop ≤ point.rank loop + 2 := by
  cases point <;> simp [ExecutionPoint.wake, ExecutionPoint.rank]

variable {program next : Application}

theorem rank_mainStep (phased : program.Phased)
    (stepped : program.MainStep next) : next.rank + 1 ≤ program.rank := by
  cases stepped with
  | startEngine here =>
      have absent : program.execution = .absent :=
        phased.executionAbsent.mpr (by simp [here, MainPoint.remaining])
      simp only [rank, here, absent, MainPoint.remaining, ExecutionPoint.rank]
      omega
  | startSimulator here =>
      have absent : program.market = .absent :=
        phased.marketAbsent.mpr (by simp [here, MainPoint.remaining])
      simp only [rank, here, absent, MainPoint.remaining, MarketPoint.rank]
      omega
  | notifyAll here =>
      have woken := rank_wake program.execution program.bot.system.loop
      simp only [rank, here, MainPoint.remaining]
      omega
  | subscribe here =>
      simp only [rank, here, MainPoint.remaining, Bot.subscribe]
      omega
  | _ here =>
      simp only [rank, here, MainPoint.remaining]
      omega

theorem rank_listener {bot moved : Bot} {action : BotAction}
    (calls : action = .onTick ∨ action = .placeOrder ∨ action = .returnOnTick)
    (stepped : bot.step action = some moved) :
    moved.feed.rank + 1 ≤ bot.feed.rank := by
  rcases calls with rfl | rfl | rfl
  · obtain ⟨_, _, _, stage, ⟨_, _, rfl⟩ | ⟨_, rfl⟩⟩ :=
      Bot.onTick_eq_some.mp stepped
    · simp only [stage, FeedStage.rank, List.length_cons]
      omega
    · simp only [stage, FeedStage.rank, List.length_cons]
      omega
  · obtain ⟨_, _, _, stage, rfl⟩ := Bot.placeOrder_eq_some.mp stepped
    simp only [stage, FeedStage.rank]
    omega
  · obtain ⟨_, _, stage, rfl⟩ := Bot.returnOnTick_eq_some.mp stepped
    simp only [stage, FeedStage.rank]
    omega

theorem rank_marketStep (orderly : program.Orderly)
    (stepped : program.MarketStep next) : next.rank + 1 ≤ program.rank := by
  have bounded := orderly.bounded
  cases stepped with
  | whileTest here =>
      by_cases running : program.simulatorRunning ∧
          program.simulator.tickCount < MarketSimulator.maxTicks
      · simp only [rank, here, if_pos running, MarketPoint.rank]
        omega
      · simp only [rank, here, if_neg running, MarketPoint.rank]
        omega
  | publishTick here round bot published =>
      have reached := orderly.reachable (by simp [here])
      obtain ⟨_, simulated, rfl⟩ := Bot.publishTick_eq_some.mp published
      have notified := (Bot.Pipelined.of_reachable reached).notified simulated
      simp only [rank, here, MarketPoint.rank, FeedStage.rank, notified,
        System.publishTick, List.length_singleton]
      omega
  | listener book here action bot calls moved =>
      obtain ⟨_, _, loop, queue⟩ := listener_frame calls moved
      have lowered := rank_listener calls moved
      simp only [rank, here, MarketPoint.rank, loop, queue]
      omega
  | submitOrder book here unlocked bot moved =>
      obtain ⟨_, _, _, stage, rfl⟩ := Bot.submitOrder_eq_some.mp moved
      simp only [rank, here, MarketPoint.rank, stage, FeedStage.rank,
        System.submitOrder, List.length_append, List.length_singleton]
      omega
  | notifyOne book here =>
      have woken := rank_wake program.execution program.bot.system.loop
      simp only [rank, here, MarketPoint.rank]
      omega
  | returnPublishTick book here bot moved =>
      obtain ⟨_, stage, rfl⟩ := Bot.returnPublishTick_eq_some.mp moved
      simp only [rank, here, MarketPoint.rank, stage]
      omega
  | publishOrderBook book here bot moved =>
      obtain ⟨_, rfl⟩ := Bot.publishOrderBook_eq_some.mp moved
      simp only [rank, here, MarketPoint.rank, System.publishOrderBook]
      omega
  | wakeUp here =>
      simp only [here, MarketPoint.inRound, MarketPoint.uncounted] at bounded
      simp only [rank, here, MarketPoint.rank]
      omega

theorem rank_execute {bot moved : Bot} {action : BotAction}
    (calls : action = .getLatestTick ∨ action = .simulateOrderExecution ∨
      ∃ executedAt, action = .simulateTrade executedAt)
    (stepped : bot.step action = some moved) :
    moved.system.loop.rank + 1 ≤ bot.system.loop.rank := by
  rcases calls with rfl | rfl | ⟨executedAt, rfl⟩
  · obtain ⟨_, _, quoted, rfl⟩ := Bot.getLatestTick_eq_some.mp stepped
    obtain ⟨_, stage, rfl⟩ := System.getLatestTick_eq_some.mp quoted
    simp [stage, LoopStage.rank]
  · obtain ⟨_, executed, rfl⟩ := Bot.loopStep_eq_some.mp stepped
    obtain ⟨_, _, stage, _, rfl⟩ :=
      System.simulateOrderExecution_eq_some.mp executed
    simp [stage, LoopStage.rank]
  · obtain ⟨_, traded, rfl⟩ := Bot.loopStep_eq_some.mp stepped
    obtain ⟨_, _, stage, rfl⟩ := System.simulateTrade_eq_some.mp traded
    simp [stage, LoopStage.rank]

theorem rank_executionStep (stepped : program.ExecutionStep next) :
    next.rank + 1 ≤ program.rank := by
  cases stepped with
  | whileTest here =>
      cases program.engineRunning <;> simp [rank, here, ExecutionPoint.rank]
  | waitTest here empty =>
      cases program.engineRunning <;> simp [rank, here, ExecutionPoint.rank]
  | block here =>
      simp only [rank, here, ExecutionPoint.rank]
      omega
  | takeRequest here request bot moved =>
      obtain ⟨_, taken, rfl⟩ := Bot.loopStep_eq_some.mp moved
      obtain ⟨_, top, rfl⟩ := System.takeRequest_eq_some.mp taken
      have shorter := List.length_erase_of_mem top.1
      have present := List.length_pos_of_mem top.1
      simp only [rank, here, ExecutionPoint.rank, LoopStage.rank, shorter]
      omega
  | execute here action bot calls moved =>
      obtain ⟨feed, _, _, queue⟩ := execute_frame calls moved
      have lowered := rank_execute calls moved
      simp only [rank, here, ExecutionPoint.rank, feed, queue]
      omega
  | recordLatency here latency bot moved =>
      obtain ⟨_, recorded, rfl⟩ := Bot.loopStep_eq_some.mp moved
      obtain ⟨_, _, stage, rfl⟩ := System.recordLatency_eq_some.mp recorded
      have high : 4 ≤ program.bot.system.loop.rank := by
        rcases stage with stage | ⟨stage, _⟩ <;> simp [stage, LoopStage.rank]
      simp only [rank, here, ExecutionPoint.rank, System.finishRequest]
      omega

theorem rank_step {action : ApplicationAction} (orderly : program.Orderly)
    (stepped : program.step action = some next) :
    next.rank + 1 ≤ program.rank + action.allowance := by
  rcases step_cases stepped with moved | moved | moved | ⟨rfl, here, rfl⟩
  · exact (rank_mainStep orderly.toPhased moved).trans (Nat.le_add_right _ _)
  · exact (rank_marketStep orderly moved).trans (Nat.le_add_right _ _)
  · exact (rank_executionStep moved).trans (Nat.le_add_right _ _)
  · simp only [rank, here, ExecutionPoint.rank, ApplicationAction.allowance]
    omega

/-- No thread can go on, unless the loop wakes up by itself. -/
def Stuck (program : Application) : Prop :=
  ∀ action, action ≠ .wakeSpuriously → program.step action = none

/-- `stop` has notified before the loop blocked, and waits for it. -/
structure WakeUpLost (program : Application) : Prop where
  main : program.main = .joinEngine
  execution : program.execution = .blocked

theorem not_stuck (action : ApplicationAction)
    (enabled : (program.step action).isSome)
    (own : action ≠ .wakeSpuriously) : ¬ program.Stuck := by
  intro stuck
  rw [stuck action own] at enabled
  cases enabled

/-- Inside `onTick`, only `executionQueue.push` may have to wait. -/
theorem advances_listener {book : OrderBook}
    (here : program.market = .publishing book)
    (busy : program.bot.feed ≠ .idle)
    (unlocked : program.execution ≠ .blocking) : ¬ program.Stuck := by
  cases stage : program.bot.feed with
  | idle => exact absurd stage busy
  | delivering tick waiting =>
      cases waiting with
      | nil =>
          apply not_stuck .returnPublishTick _ (by simp)
          simp [step, returnPublishTick, here, Bot.returnPublishTick, stage]
      | cons listener waiting =>
          apply not_stuck .onTick _ (by simp)
          cases signalled : program.bot.listener.signal tick <;>
            simp [step, listenerStep, here, Bot.onTick, stage, signalled]
  | placing tick order waiting =>
      apply not_stuck .placeOrder _ (by simp)
      simp [step, listenerStep, here, Bot.placeOrder, stage]
  | submitting tick request waiting =>
      apply not_stuck .submitOrder _ (by simp)
      simp [step, submitOrder, here, Bot.submitOrder, stage, unlocked]
  | returning tick waiting =>
      apply not_stuck .returnOnTick _ (by simp)
      simp [step, listenerStep, here, Bot.returnOnTick, stage]

theorem advances_market (orderly : program.Orderly)
    (started : program.market ≠ .absent) (running : program.market ≠ .returned)
    (unlocked : program.execution ≠ .blocking) : ¬ program.Stuck := by
  have feeds := orderly.feeds
  cases here : program.market with
  | absent => exact absurd here started
  | returned => exact absurd here running
  | whileTest =>
      apply not_stuck .testMarket _ (by simp)
      simp [step, testMarket, here]
  | publishTick =>
      rw [here] at feeds
      have idle : program.bot.feed = .idle := feeds
      let round : Round :=
        { draws :=
            { priceChange := 0, bidVolume := 0, askVolume := 0,
              bidDepth := (0, 0), askDepth := (0, 0) }
          timestamp := default }
      have simulated := simulatedRound_simulated program.simulator.basePrice
        round.draws round.timestamp
      apply not_stuck (.publishTick round) _ (by simp)
      simp [step, publishTick, here, Bot.publishTick, idle, simulated]
  | publishing book =>
      rw [here] at feeds
      exact advances_listener here feeds unlocked
  | notifying book =>
      apply not_stuck .notifyOne _ (by simp)
      simp [step, notifyOne, here]
  | publishOrderBook book =>
      rw [here] at feeds
      have idle : program.bot.feed = .idle := feeds
      apply not_stuck .publishOrderBook _ (by simp)
      simp [step, publishOrderBook, here, Bot.publishOrderBook, idle]
  | sleeping =>
      apply not_stuck .wakeUp _ (by simp)
      simp [step, wakeUp, here]

/-- `executeOrder` waits for the market thread only. -/
theorem advances_executing (orderly : program.Orderly)
    (here : program.execution = .executing) : ¬ program.Stuck := by
  have executes := orderly.executes
  cases stage : program.bot.system.loop with
  | waiting => exact absurd here (executes.mp stage)
  | taken request =>
      by_cases idle : program.bot.feed = .idle
      · apply not_stuck .getLatestTick _ (by simp)
        simp [step, executeStep, here, Bot.step, Bot.getLatestTick, idle,
          Bot.loopStep, System.getLatestTick, stage]
      · have feeds := orderly.feeds
        refine advances_market orderly ?_ ?_ (by simp [here])
        · intro absent
          rw [absent] at feeds
          exact idle feeds
        · intro returned
          rw [returned] at feeds
          exact idle feeds
  | quoted request latestTick =>
      by_cases positive : 0 < request.quantity
      · apply not_stuck .simulateOrderExecution _ (by simp)
        simp [step, executeStep, here, Bot.step, Bot.loopStep,
          System.simulateOrderExecution, stage, positive]
      · have zero : request.quantity = 0 := by simpa using positive
        apply not_stuck (.recordLatency 0) _ (by simp)
        simp [step, executeStep, here, Bot.step, Bot.loopStep,
          System.recordLatency, stage, zero]
  | executed request latestTick =>
      apply not_stuck (.simulateTrade default) _ (by simp)
      simp [step, executeStep, here, Bot.step, Bot.loopStep,
        System.simulateTrade, stage]
  | traded request latestTick =>
      apply not_stuck (.recordLatency 0) _ (by simp)
      simp [step, executeStep, here, Bot.step, Bot.loopStep,
        System.recordLatency, stage]

theorem advances_execution (orderly : program.Orderly)
    (started : program.execution ≠ .absent)
    (running : program.execution ≠ .returned)
    (awake : program.execution ≠ .blocked) : ¬ program.Stuck := by
  cases here : program.execution with
  | absent => exact absurd here started
  | returned => exact absurd here running
  | blocked => exact absurd here awake
  | executing => exact advances_executing orderly here
  | whileTest =>
      apply not_stuck .advanceLoop _ (by simp)
      simp [step, advanceLoop, here]
  | blocking =>
      apply not_stuck .advanceLoop _ (by simp)
      simp [step, advanceLoop, here]
  | waitTest =>
      by_cases empty : program.bot.system.executionQueue = []
      · apply not_stuck .advanceLoop _ (by simp)
        simp [step, advanceLoop, here, empty]
      · obtain ⟨request, top⟩ := exists_isTop empty
        have waiting := orderly.executes.mpr (by simp [here])
        apply not_stuck (.takeRequest request) _ (by simp)
        simp [step, takeRequest, here, Bot.step, Bot.loopStep,
          System.takeRequest, waiting, top]

theorem advances_main (unjoined : program.main ≠ .joinSimulator)
    (unstopped : program.main ≠ .joinEngine)
    (running : program.main ≠ .returned) : ¬ program.Stuck := by
  apply not_stuck .main _ (by simp)
  cases here : program.main <;> simp_all [step, mainStep]

theorem advances_joinSimulator (orderly : program.Orderly)
    (here : program.main = .joinSimulator) : ¬ program.Stuck := by
  have remaining : program.main.remaining = 4 := by
    rw [here]
    rfl
  by_cases joined : program.market = .returned
  · apply not_stuck .main _ (by simp)
    simp [step, mainStep, here, joined]
  · by_cases locked : program.execution = .blocking
    · exact advances_execution orderly (by simp [locked]) (by simp [locked])
        (by simp [locked])
    · refine advances_market orderly ?_ joined locked
      intro absent
      have early := orderly.marketAbsent.mp absent
      omega

theorem advances_joinEngine (orderly : program.Orderly)
    (here : program.main = .joinEngine)
    (awake : program.execution ≠ .blocked) : ¬ program.Stuck := by
  have remaining : program.main.remaining = 1 := by
    rw [here]
    rfl
  by_cases joined : program.execution = .returned
  · apply not_stuck .main _ (by simp)
    simp [step, mainStep, here, joined]
  · refine advances_execution orderly ?_ joined awake
    intro absent
    have early := orderly.executionAbsent.mp absent
    omega

theorem stuck_of_rest (main : program.mainStep = none)
    (market : program.market = .returned)
    (execution : program.execution = .returned ∨
      program.execution = .blocked) : program.Stuck := by
  intro action own
  have idle : program.execution ≠ .executing ∧
      program.execution ≠ .waitTest := by
    rcases execution with here | here <;> simp [here]
  cases action with
  | main => exact main
  | wakeSpuriously => exact absurd rfl own
  | advanceLoop =>
      rcases execution with here | here <;> simp [step, advanceLoop, here]
  | takeRequest request => simp [step, takeRequest, idle.2]
  | getLatestTick => simp [step, executeStep, idle.1]
  | simulateOrderExecution => simp [step, executeStep, idle.1]
  | simulateTrade executedAt => simp [step, executeStep, idle.1]
  | recordLatency latency => simp [step, executeStep, idle.1]
  | testMarket => simp [step, testMarket, market]
  | publishTick round => simp [step, publishTick, market]
  | onTick => simp [step, listenerStep, market]
  | placeOrder => simp [step, listenerStep, market]
  | submitOrder => simp [step, submitOrder, market]
  | notifyOne => simp [step, notifyOne, market]
  | returnOnTick => simp [step, listenerStep, market]
  | returnPublishTick => simp [step, returnPublishTick, market]
  | publishOrderBook => simp [step, publishOrderBook, market]
  | wakeUp => simp [step, wakeUp, market]

theorem stuck_iff (orderly : program.Orderly) :
    program.Stuck ↔ program.main = .returned ∨ program.WakeUpLost := by
  constructor
  · intro stuck
    by_cases returned : program.main = .returned
    · exact .inl returned
    by_cases joining : program.main = .joinSimulator
    · exact absurd stuck (advances_joinSimulator orderly joining)
    by_cases stopping : program.main = .joinEngine
    · by_cases blocked : program.execution = .blocked
      · exact .inr ⟨stopping, blocked⟩
      · exact absurd stuck (advances_joinEngine orderly stopping blocked)
    · exact absurd stuck (advances_main joining stopping returned)
  · intro rest
    rcases rest with returned | lost
    · have finished : program.main.remaining = 0 := by
        rw [returned]
        rfl
      exact stuck_of_rest (by simp [mainStep, returned])
        (orderly.marketReturned (by omega))
        (.inl (orderly.executionJoined finished))
    · have late : program.main.remaining = 1 := by
        rw [lost.main]
        rfl
      exact stuck_of_rest (by simp [mainStep, lost.main, lost.execution])
        (orderly.marketReturned (by omega)) (.inr lost.execution)

/-- When the wake-up is lost everything has been executed. -/
theorem WakeUpLost.rests (orderly : program.Orderly)
    (lost : program.WakeUpLost) :
    program.bot.Rests ∧ program.bot.system.executionQueue = [] := by
  have late : program.main.remaining = 1 := by
    rw [lost.main]
    rfl
  have market := orderly.marketReturned (by omega)
  have feeds := orderly.feeds
  rw [market] at feeds
  have waiting := orderly.executes.mpr (by simp [lost.execution])
  refine ⟨Bot.resting (orderly.reachable (by simp [market])) feeds waiting, ?_⟩
  rcases orderly.blocked lost.execution with empty | ⟨book, notifying⟩
  · exact empty
  · rw [market] at notifying
    cases notifying

/-- Every run ends, after at most `maxSteps` steps and three for each spurious
wake-up.  It ends with `main` having returned, or with `main` waiting for a
loop that has executed everything and missed the wake-up of `stop`. -/
theorem run_ends {actions : List ApplicationAction}
    (ran : machine.run init actions = some program) :
    actions.length ≤
        maxSteps + (actions.map ApplicationAction.allowance).sum ∧
      (program.Stuck ↔ program.main = .returned ∨ program.WakeUpLost) ∧
      (program.WakeUpLost →
        program.bot.Rests ∧ program.bot.system.executionQueue = []) := by
  have orderly := Orderly.of_reachable ⟨actions, ran⟩
  refine ⟨?_, stuck_iff orderly, fun lost => lost.rests orderly⟩
  have bound := Library.Machine.length_le_of_rank Orderly
    ⟨phased_init, synchronized_init⟩
    (fun _ _ _ earlier stepped => earlier.step stepped)
    (fun _ _ _ earlier stepped => rank_step earlier stepped) ran
  rw [rank_init] at bound
  exact (Nat.le_add_right _ _).trans bound

/-- The loop tests its predicate before `stop` and blocks after it. -/
private def blockedLate : List ApplicationAction :=
  List.replicate 10 .main ++
    [.testMarket, .main, .advanceLoop, .advanceLoop, .main, .main, .advanceLoop]

theorem run_ends_lost :
    ∃ program, machine.run init blockedLate = some program ∧
      blockedLate.length ≤
        maxSteps + (blockedLate.map ApplicationAction.allowance).sum ∧
      program.Stuck ∧ program.bot.Rests ∧
        program.bot.system.executionQueue = [] := by
  have ends : (machine.run init blockedLate).any (fun program =>
      program.main = .joinEngine ∧ program.execution = .blocked) := by
    decide +kernel
  obtain ⟨program, ran, main, execution⟩ : ∃ program,
      machine.run init blockedLate = some program ∧
        program.main = .joinEngine ∧ program.execution = .blocked := by
    simpa [Option.any_eq_true] using ends
  have lost : program.WakeUpLost := ⟨main, execution⟩
  obtain ⟨bound, stuck, rests⟩ := run_ends ran
  exact ⟨program, ran, bound, stuck.mpr (.inr lost), rests lost⟩

end Application

end TradingBot
