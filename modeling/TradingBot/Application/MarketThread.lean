import TradingBot.Application.Exit

namespace TradingBot

open Library

/-! The simulator's thread, whatever runs beside it, performs the loop of
`simulateMarketData`. -/

namespace MarketSimulator

theorem simulateMarketData_concat (expired : ListenerId → Bool)
    (simulator : MarketSimulator) (handler : MarketDataHandler)
    (rounds : List Round) (last : Round) :
    simulateMarketData expired simulator handler (rounds ++ [last]) =
      if (simulateMarketData expired simulator handler rounds).1.tickCount <
          maxTicks then
        (simulateMarketData expired simulator handler rounds).1.round expired
          (simulateMarketData expired simulator handler rounds).2 last
      else simulateMarketData expired simulator handler rounds := by
  induction rounds generalizing simulator handler with
  | nil => rfl
  | cons first rest induction =>
      rw [List.cons_append, simulateMarketData, simulateMarketData]
      split
      next running => exact induction _ _
      next stopped => rfl

theorem publications_append (basePrice : Rat) (earlier later : List Round) :
    publications basePrice (earlier ++ later) =
      publications basePrice earlier ++
        publications (reflected 50 basePrice (changes earlier)) later := by
  induction earlier generalizing basePrice with
  | nil => rfl
  | cons first rest induction =>
      rw [List.cons_append, publications, publications, induction]
      rfl

theorem reflected_changes_append (basePrice : Rat)
    (earlier later : List Round) :
    reflected 50 basePrice (changes (earlier ++ later)) =
      reflected 50 (reflected 50 basePrice (changes earlier))
        (changes later) := by
  rw [changes, List.map_append, reflected, List.foldl_append]
  rfl

end MarketSimulator

namespace Application

/-- The sequential loop over the handler that `main` subscribes to. -/
def performed (rounds : List Round) : MarketSimulator × MarketDataHandler :=
  MarketSimulator.simulateMarketData (fun _ => false) MarketSimulator.init
    (MarketDataHandler.init.subscribe "AAPL" 0) rounds

/-- The loop within a round, once the tick of the round is published. -/
def performing (earlier : List Round) (round : Round) :
    MarketSimulator × MarketDataHandler × OrderBook :=
  let before := performed earlier
  let published :=
    simulatedRound before.1.basePrice round.draws round.timestamp
  ({ before.1 with basePrice := published.1 },
    (before.2.publishTick (fun _ => false) published.2.1).1, published.2.2)

/-- Where in the loop the market thread is, over what it works on. -/
def Performing (rounds : List Round) (simulator : MarketSimulator)
    (marketData : MarketDataHandler) : MarketPoint → Prop
  | .absent =>
      rounds = [] ∧ simulator = MarketSimulator.init ∧
        (marketData = MarketDataHandler.init ∨
          marketData = MarketDataHandler.init.subscribe "AAPL" 0)
  | .whileTest | .publishTick | .returned =>
      (simulator, marketData) = performed rounds
  | .publishing book | .notifying book | .publishOrderBook book =>
      ∃ earlier round, rounds = earlier ++ [round] ∧
        (simulator, marketData, book) = performing earlier round
  | .sleeping =>
      ∃ earlier round, rounds = earlier ++ [round] ∧
        simulator = (performing earlier round).1 ∧
        marketData =
          (((performing earlier round).2.1).publishOrderBook (fun _ => false)
            (performing earlier round).2.2).1

def Performs (program : Application) (rounds : List Round) : Prop :=
  Performing rounds program.simulator program.bot.system.marketData
    program.market

theorem performed_concat {earlier : List Round} {round : Round}
    (room : (performed earlier).1.tickCount < MarketSimulator.maxTicks) :
    performed (earlier ++ [round]) =
      ({ (performing earlier round).1 with
          tickCount := (performing earlier round).1.tickCount + 1 },
        (((performing earlier round).2.1).publishOrderBook (fun _ => false)
          (performing earlier round).2.2).1) := by
  rw [performed, MarketSimulator.simulateMarketData_concat]
  exact if_pos room

theorem subscribed_marketData :
    Bot.unsubscribed.subscribe.system.marketData =
      MarketDataHandler.init.subscribe "AAPL" 0 := rfl

theorem Performs.mainStep {program next : Application} {rounds : List Round}
    (performs : program.Performs rounds) (phased : program.Phased)
    (stepped : program.MainStep next) : next.Performs rounds := by
  cases stepped with
  | subscribe here =>
      have absent : program.market = .absent :=
        phased.marketAbsent.mpr (by simp [here, MainPoint.remaining])
      have wired := phased.wired
      rw [if_neg (by simp [here, MainPoint.remaining])] at wired
      simp only [Performs, absent, wired] at performs ⊢
      exact ⟨performs.1, performs.2.1, .inr subscribed_marketData⟩
  | startSimulator here =>
      have absent : program.market = .absent :=
        phased.marketAbsent.mpr (by simp [here, MainPoint.remaining])
      have wired := phased.wired
      rw [if_pos (by simp [here, MainPoint.remaining])] at wired
      have subscribed := (Bot.Pipelined.of_reachable wired).subscribed
      simp only [Performs, absent] at performs ⊢
      obtain ⟨rfl, untouched, unsubscribed | marketData⟩ := performs
      · rw [unsubscribed] at subscribed
        simp [MarketDataHandler.subscribers, MarketDataHandler.init] at subscribed
      · rw [untouched, marketData]
        rfl
  | _ => exact performs

/-- What the loop and the listener leave alone. -/
theorem marketData_step {bot next : Bot} {action : BotAction}
    (noTick : ∀ tick, action ≠ .publishTick tick)
    (noBook : ∀ book, action ≠ .publishOrderBook book)
    (stepped : bot.step action = some next) :
    next.system.marketData = bot.system.marketData ∧
      next.published = bot.published := by
  cases action with
  | publishTick tick => exact absurd rfl (noTick tick)
  | publishOrderBook book => exact absurd rfl (noBook book)
  | onTick =>
      obtain ⟨_, _, _, _, ⟨_, _, rfl⟩ | ⟨_, rfl⟩⟩ := Bot.onTick_eq_some.mp stepped
      · exact ⟨rfl, rfl⟩
      · exact ⟨rfl, rfl⟩
  | placeOrder =>
      obtain ⟨_, _, _, _, rfl⟩ := Bot.placeOrder_eq_some.mp stepped
      exact ⟨rfl, rfl⟩
  | submitOrder =>
      obtain ⟨_, _, _, _, rfl⟩ := Bot.submitOrder_eq_some.mp stepped
      exact ⟨rfl, rfl⟩
  | returnOnTick =>
      obtain ⟨_, _, _, rfl⟩ := Bot.returnOnTick_eq_some.mp stepped
      exact ⟨rfl, rfl⟩
  | returnPublishTick =>
      obtain ⟨_, _, rfl⟩ := Bot.returnPublishTick_eq_some.mp stepped
      exact ⟨rfl, rfl⟩
  | takeRequest request =>
      obtain ⟨_, taken, rfl⟩ := Bot.loopStep_eq_some.mp stepped
      obtain ⟨_, _, rfl⟩ := System.takeRequest_eq_some.mp taken
      exact ⟨rfl, rfl⟩
  | getLatestTick =>
      obtain ⟨_, _, quoted, rfl⟩ := Bot.getLatestTick_eq_some.mp stepped
      obtain ⟨_, _, rfl⟩ := System.getLatestTick_eq_some.mp quoted
      exact ⟨rfl, rfl⟩
  | simulateOrderExecution =>
      obtain ⟨_, executed, rfl⟩ := Bot.loopStep_eq_some.mp stepped
      obtain ⟨_, _, _, _, rfl⟩ :=
        System.simulateOrderExecution_eq_some.mp executed
      exact ⟨rfl, rfl⟩
  | simulateTrade executedAt =>
      obtain ⟨_, traded, rfl⟩ := Bot.loopStep_eq_some.mp stepped
      obtain ⟨_, _, _, rfl⟩ := System.simulateTrade_eq_some.mp traded
      exact ⟨rfl, rfl⟩
  | recordLatency latency =>
      obtain ⟨_, recorded, rfl⟩ := Bot.loopStep_eq_some.mp stepped
      obtain ⟨_, _, _, rfl⟩ := System.recordLatency_eq_some.mp recorded
      exact ⟨rfl, rfl⟩

theorem performing_room {program : Application} {earlier : List Round}
    {round : Round} (orderly : program.Orderly)
    (here : program.market = .sleeping)
    (simulator : program.simulator = (performing earlier round).1) :
    (performed earlier).1.tickCount < MarketSimulator.maxTicks := by
  have bounded := orderly.bounded
  rw [here, simulator] at bounded
  exact bounded

/-- Inside a round, up to its book, the thread has only to go on. -/
theorem Performing.quiet {rounds : List Round} {simulator : MarketSimulator}
    {marketData : MarketDataHandler} {book : OrderBook} {point : MarketPoint}
    (performs : Performing rounds simulator marketData (.publishing book))
    (within : point = .publishing book ∨ point = .notifying book ∨
      point = .publishOrderBook book) :
    Performing rounds simulator marketData point := by
  rcases within with rfl | rfl | rfl <;> exact performs

theorem Performs.marketStep {program next : Application} {rounds : List Round}
    (performs : program.Performs rounds) (orderly : program.Orderly)
    (stepped : program.MarketStep next) :
    ∃ later, next.Performs (rounds ++ later) ∧
      next.bot.published =
        program.bot.published ++
          (MarketSimulator.publications program.simulator.basePrice later).map
            Prod.fst ∧
      next.simulator.basePrice =
        reflected 50 program.simulator.basePrice
          (MarketSimulator.changes later) := by
  unfold Performs at performs
  cases stepped with
  | whileTest here =>
      rw [here] at performs
      refine ⟨[], ?_, by simp [MarketSimulator.publications], rfl⟩
      rw [List.append_nil]
      simp only [Performs]
      split <;> exact performs
  | publishTick here round bot published =>
      rw [here] at performs
      have before : (program.simulator, program.bot.system.marketData) =
          performed rounds := performs
      obtain ⟨_, _, rfl⟩ := Bot.publishTick_eq_some.mp published
      refine ⟨[round], ⟨rounds, round, rfl, ?_⟩, rfl, rfl⟩
      rw [performing, ← before]
      rfl
  | listener book here action bot calls moved =>
      obtain ⟨kept, same⟩ := marketData_step
        (by rcases calls with rfl | rfl | rfl <;> simp)
        (by rcases calls with rfl | rfl | rfl <;> simp) moved
      refine ⟨[], ?_, by simp [MarketSimulator.publications, same], rfl⟩
      rw [List.append_nil]
      simp only [Performs, kept]
      exact performs
  | submitOrder book here unlocked bot moved =>
      obtain ⟨_, _, _, _, rfl⟩ := Bot.submitOrder_eq_some.mp moved
      rw [here] at performs
      refine ⟨[], ?_, by simp [MarketSimulator.publications], rfl⟩
      rw [List.append_nil]
      exact performs.quiet (by simp)
  | notifyOne book here =>
      rw [here] at performs
      refine ⟨[], ?_, by simp [MarketSimulator.publications], rfl⟩
      rw [List.append_nil]
      exact performs
  | returnPublishTick book here bot moved =>
      obtain ⟨_, _, rfl⟩ := Bot.returnPublishTick_eq_some.mp moved
      rw [here] at performs
      refine ⟨[], ?_, by simp [MarketSimulator.publications], rfl⟩
      rw [List.append_nil]
      exact performs.quiet (by simp)
  | publishOrderBook book here bot moved =>
      obtain ⟨_, rfl⟩ := Bot.publishOrderBook_eq_some.mp moved
      rw [here] at performs
      obtain ⟨earlier, round, rfl, same⟩ := performs
      refine ⟨[], ?_, by simp [MarketSimulator.publications], rfl⟩
      rw [List.append_nil]
      refine ⟨earlier, round, rfl, congrArg Prod.fst same, ?_⟩
      rw [← same]
      rfl
  | wakeUp here =>
      rw [here] at performs
      obtain ⟨earlier, round, rfl, simulator, marketData⟩ := performs
      refine ⟨[], ?_, by simp [MarketSimulator.publications], rfl⟩
      rw [List.append_nil]
      show (_, _) = performed (earlier ++ [round])
      rw [performed_concat (performing_room orderly here simulator),
        ← marketData, ← simulator]

theorem Performs.executionStep {program next : Application}
    {rounds : List Round} (performs : program.Performs rounds)
    (stepped : program.ExecutionStep next) :
    next.Performs rounds ∧ next.bot.published = program.bot.published ∧
      next.simulator = program.simulator := by
  unfold Performs at performs ⊢
  cases stepped with
  | whileTest => exact ⟨performs, rfl, rfl⟩
  | waitTest => exact ⟨performs, rfl, rfl⟩
  | block => exact ⟨performs, rfl, rfl⟩
  | takeRequest here request bot moved =>
      obtain ⟨kept, same⟩ := marketData_step (by simp) (by simp) moved
      exact ⟨kept ▸ performs, same, rfl⟩
  | execute here action bot calls moved =>
      obtain ⟨kept, same⟩ := marketData_step
        (by rcases calls with rfl | rfl | ⟨executedAt, rfl⟩ <;> simp)
        (by rcases calls with rfl | rfl | ⟨executedAt, rfl⟩ <;> simp) moved
      exact ⟨kept ▸ performs, same, rfl⟩
  | recordLatency here latency bot moved =>
      obtain ⟨kept, same⟩ := marketData_step (by simp) (by simp) moved
      exact ⟨kept ▸ performs, same, rfl⟩

theorem mainStep_market {program next : Application}
    (stepped : program.MainStep next) :
    next.bot.published = program.bot.published ∧
      next.simulator = program.simulator := by
  cases stepped <;> exact ⟨rfl, rfl⟩

/-- The rounds that the market thread has begun to publish. -/
structure Follows (program : Application) (rounds : List Round) : Prop where
  orderly : program.Orderly
  performs : program.Performs rounds
  published : program.bot.published =
    (MarketSimulator.publications 100 rounds).map Prod.fst
  basePrice : program.simulator.basePrice =
    reflected 50 100 (MarketSimulator.changes rounds)

theorem follows_init : init.Follows [] where
  orderly := ⟨phased_init, synchronized_init⟩
  performs := ⟨rfl, rfl, .inl rfl⟩
  published := rfl
  basePrice := rfl

theorem Follows.stay {program next : Application} {rounds : List Round}
    (follows : program.Follows rounds) (orderly : next.Orderly)
    (performs : next.Performs rounds)
    (published : next.bot.published = program.bot.published)
    (simulator : next.simulator = program.simulator) :
    ∃ rounds, next.Follows rounds :=
  ⟨rounds, orderly, performs, published.trans follows.published,
    simulator ▸ follows.basePrice⟩

theorem Follows.step {program next : Application} {rounds : List Round}
    {action : ApplicationAction} (follows : program.Follows rounds)
    (stepped : program.step action = some next) :
    ∃ rounds, next.Follows rounds := by
  have orderly := follows.orderly.step stepped
  rcases step_cases stepped with moved | moved | moved | ⟨_, _, rfl⟩
  · obtain ⟨published, simulator⟩ := mainStep_market moved
    exact follows.stay orderly
      (follows.performs.mainStep follows.orderly.toPhased moved) published
      simulator
  · obtain ⟨later, performs, published, basePrice⟩ :=
      follows.performs.marketStep follows.orderly moved
    refine ⟨rounds ++ later, orderly, performs, ?_, ?_⟩
    · rw [published, follows.published, follows.basePrice,
        MarketSimulator.publications_append, List.map_append]
    · rw [basePrice, follows.basePrice,
        MarketSimulator.reflected_changes_append]
  · obtain ⟨performs, published, simulator⟩ :=
      follows.performs.executionStep moved
    exact follows.stay orderly performs published simulator
  · exact follows.stay orderly follows.performs rfl rfl

theorem exists_follows {program : Application}
    (reached : machine.Reachable program) :
    ∃ rounds, program.Follows rounds :=
  Machine.reachable_preserves (fun program : Application =>
      ∃ rounds, program.Follows rounds) ⟨[], follows_init⟩ reached
    fun _ _ _ follows stepped => by
      obtain ⟨rounds, follows⟩ := follows
      exact follows.step stepped

/-- Between two rounds, and at its end, the market thread has done what the
sequential loop does with some draws, and the handler holds every tick that has
been published. -/
theorem market_performs_loop {program : Application}
    (reached : machine.Reachable program)
    (between : program.market = .whileTest ∨ program.market = .returned) :
    ∃ rounds data,
      (program.simulator, program.bot.system.marketData) =
          MarketSimulator.simulateMarketData (fun _ => false)
            MarketSimulator.init
            (MarketDataHandler.init.subscribe "AAPL" 0) rounds ∧
        rounds.length = program.simulator.tickCount ∧
        IsGreatest (freePaths 50 100 (MarketSimulator.changes rounds))
          program.simulator.basePrice ∧
        program.bot.system.marketData.symbolDataMap["AAPL"]? = some data ∧
        data.tickHistory = program.bot.published ∧
        data.orderBookHistory.length = rounds.length := by
  obtain ⟨rounds, orderly, performs, published, basePrice⟩ :=
    exists_follows reached
  have quiet : program.market.uncounted = 0 := by
    rcases between with here | here <;> rw [here] <;> rfl
  have loop : (program.simulator, program.bot.system.marketData) =
      performed rounds := by
    unfold Performs at performs
    rcases between with here | here
    · rwa [here] at performs
    · rwa [here] at performs
  have count : rounds.length = program.simulator.tickCount := by
    rw [← MarketSimulator.length_publications 100 rounds,
      ← List.length_map Prod.fst, ← published, orderly.counted, quiet,
      Nat.add_zero]
  have bounded : rounds.length ≤ MarketSimulator.maxTicks :=
    count.le.trans ((Nat.le_add_right _ _).trans orderly.bounded)
  obtain ⟨_, _, stored⟩ := MarketSimulator.simulateMarketData_data
    (fun _ => false) MarketSimulator.init rounds
    (MarketSimulator.subscribe_init_data 0) rfl rfl
  rw [List.take_of_length_le (by simpa [MarketSimulator.init] using bounded)]
    at stored
  have marketData : program.bot.system.marketData = (performed rounds).2 :=
    congrArg Prod.snd loop
  rw [← performed, ← marketData] at stored
  refine ⟨rounds, _, loop, count, ?_, stored, ?_, ?_⟩
  · rw [basePrice]
    exact reflected_isGreatest 50 100 (MarketSimulator.changes rounds)
  · rw [published]
    exact List.nil_append _
  · simp [MarketSimulator.length_publications]

theorem market_performs_loop_traded :
    ∃ program, machine.run init sessionOfOne = some program ∧
      ∃ rounds data,
        (program.simulator, program.bot.system.marketData) =
            MarketSimulator.simulateMarketData (fun _ => false)
              MarketSimulator.init
              (MarketDataHandler.init.subscribe "AAPL" 0) rounds ∧
          rounds.length = program.simulator.tickCount ∧
          IsGreatest (freePaths 50 100 (MarketSimulator.changes rounds))
            program.simulator.basePrice ∧
          program.bot.system.marketData.symbolDataMap["AAPL"]? = some data ∧
          data.tickHistory = program.bot.published ∧
          data.orderBookHistory.length = rounds.length := by
  have ends : (machine.run init sessionOfOne).any (fun program =>
      program.market = .returned) := by
    decide +kernel
  obtain ⟨program, ran, returned⟩ : ∃ program,
      machine.run init sessionOfOne = some program ∧
        program.market = .returned := by
    simpa [Option.any_eq_true] using ends
  exact ⟨program, ran,
    market_performs_loop ⟨sessionOfOne, ran⟩ (.inr returned)⟩

end Application

end TradingBot
