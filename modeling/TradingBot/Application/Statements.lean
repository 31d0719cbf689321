import TradingBot.Application.Exit
import TradingBot.Threads.Sections

namespace TradingBot

open Library

/-! What the program does to its engine can be done statement by statement. -/

/-- The engine's controlling thread is the one that executes `main`. -/
def MainPoint.control : MainPoint → ControlPoint
  | .notifyAll => .notifyAll
  | .joinEngine => .join
  | _ => .ready

def MainPoint.visible : MainPoint → List EngineAction
  | .startEngine => [.setRunning, .spawn]
  | .stopEngine => [.clearRunning]
  | .notifyAll => [.notify]
  | .joinEngine => [.join]
  | _ => []

namespace Application

def engine (program : Application) : Engine where
  running := program.engineRunning
  queue := program.bot.system.executionQueue
  execution :=
    if program.main = .returned then .absent else program.execution

def visible (program : Application) : ApplicationAction → List EngineAction
  | .main => program.main.visible
  | .submitOrder => program.bot.feed.request?.toList.map EngineAction.push
  | .notifyOne => [.notify]
  | .advanceLoop => [.advance]
  | .takeRequest request => [.take request]
  | .recordLatency _ => [.finish]
  | .wakeSpuriously => [.wakeSpuriously]
  | _ => []

/-- The threads of the program's engine, each between two of its sections. -/
structure Realised (program : Application) (threads : Threads) : Prop where
  orderly : program.Orderly
  engine : threads.engine = program.engine
  rests : ∀ point ∈ threads.thread, point.Rests
  unlocked : threads.thread ≠ some .block → threads.owner = none
  control : threads.control = program.main.control
  notifying : ∀ book, program.market = .notifying book →
    ∃ ticket, Threads.CallAt threads.calls ticket (· = .notify)

variable {program next : Application} {threads : Threads}

theorem realised_init : init.Realised Threads.init where
  orderly := Orderly.of_reachable Machine.Reachable.init
  engine := rfl
  rests := by simp [Threads.init]
  unlocked _ := rfl
  control := rfl
  notifying book notifying := by cases notifying

theorem Realised.running (realised : program.Realised threads) :
    threads.running = program.engineRunning :=
  congrArg Engine.running realised.engine

theorem Realised.execution (realised : program.Realised threads)
    (unfinished : program.main ≠ .returned) :
    Threads.execution threads.thread = program.execution :=
  (congrArg Engine.execution realised.engine).trans (if_neg unfinished)

theorem Realised.queue (realised : program.Realised threads) :
    (threads.queue.map Queued.request).Perm
      program.bot.system.executionQueue :=
  Multiset.coe_eq_coe.mp (congrArg Engine.queue realised.engine)

/-- The section of a point at rest tells where the loop is. -/
theorem at_rest {thread : Option LoopPoint}
    (rests : ∀ point ∈ thread, point.Rests) :
    (Threads.execution thread = .absent → thread = none) ∧
      (Threads.execution thread = .whileTest → thread = some .whileTest) ∧
      (Threads.execution thread = .waitTest →
        thread = some .acquire ∨ thread = some .reacquire) ∧
      (Threads.execution thread = .blocking → thread = some .block) ∧
      (Threads.execution thread = .blocked → thread = some .blocked) ∧
      (Threads.execution thread = .executing →
        ∃ entry, thread = some (.execute entry)) ∧
      (Threads.execution thread = .returned → thread = some .returned) := by
  cases thread with
  | none => simp [Threads.execution]
  | some point =>
      have here := rests point rfl
      cases point with
      | predQueue | predRunning | exitRunning | exitQueue | continueTest | take
      | leave _ => cases here
      | _ => simp [Threads.execution, LoopPoint.section]

/-- The engine's threads can perform a step of the program. -/
def Matched (program : Application) (action : ApplicationAction)
    (next : Application) (threads : Threads) : Prop :=
  ∃ later, Threads.machine.Performs Threads.visible threads
      (program.visible action) later ∧
    next.Realised later

theorem Matched.intro {action : ApplicationAction} {events : List EngineAction}
    {later : Threads}
    (performed : Threads.machine.Performs Threads.visible threads events later)
    (seen : program.visible action = events) (realised : next.Realised later) :
    program.Matched action next threads :=
  ⟨later, seen ▸ performed, realised⟩

/-- A step of the program that its engine does not see. -/
theorem Realised.unseen (realised : program.Realised threads)
    {action : ApplicationAction} (orderly : next.Orderly)
    (hidden : program.visible action = [])
    (engine : next.engine = program.engine)
    (control : next.main.control = program.main.control)
    (notifying : ∀ book, next.market = .notifying book →
      program.market = .notifying book) :
    program.Matched action next threads :=
  ⟨threads, hidden ▸ .refl threads,
    { orderly
      engine := realised.engine.trans engine.symm
      rests := realised.rests
      unlocked := realised.unlocked
      control := realised.control.trans control.symm
      notifying book here := realised.notifying book (notifying book here) }⟩

theorem rests_wake {thread : Option LoopPoint}
    (rests : ∀ point ∈ thread, point.Rests) :
    ∀ point ∈ Threads.wake thread, point.Rests := by
  intro point member
  rcases Threads.mem_wake member with rfl | member
  · trivial
  · exact rests point member

theorem Realised.ready (realised : program.Realised threads)
    (before : program.main.control = .ready) : threads.control = .ready :=
  realised.control.trans before

theorem matched_mainStep (realised : program.Realised threads)
    (orderly : next.Orderly) (stepped : program.MainStep next) :
    program.Matched .main next threads := by
  have queue := congrArg Engine.queue realised.engine
  have sections := at_rest realised.rests
  cases stepped with
  | startEngine here =>
      have stopped : threads.running = false := by
        rw [realised.running, ← Bool.not_eq_true,
          realised.orderly.engineRunning, here]
        simp [MainPoint.remaining]
      have absent : threads.thread = none := by
        apply sections.1
        rw [realised.execution (by simp [here])]
        exact realised.orderly.executionAbsent.mpr (by
          simp [here, MainPoint.remaining])
      exact .intro
        (Threads.performs_starting (realised.ready (by rw [here]; rfl)) stopped)
        (by rw [visible, here]; rfl)
        { orderly
          engine := Engine.ext rfl queue rfl
          rests := by simp [LoopPoint.Rests]
          unlocked := fun _ => realised.unlocked (by simp [absent])
          control := rfl
          notifying := realised.notifying }
  | stopEngine here =>
      obtain ⟨cutoff, performed⟩ :=
        Threads.performs_stopping (realised.ready (by rw [here]; rfl))
      have execution := realised.execution (by simp [here])
      exact .intro performed (by rw [visible, here]; rfl)
        { orderly
          engine := Engine.ext rfl queue execution
          rests := realised.rests
          unlocked := realised.unlocked
          control := rfl
          notifying := realised.notifying }
  | notifyAll here =>
      have execution : Threads.execution (Threads.wake threads.thread) =
          program.execution.wake := by
        rw [Threads.execution_wake, realised.execution (by simp [here])]
      exact .intro
        (Threads.performs_notifying (realised.control.trans (by rw [here]; rfl)))
        (by rw [visible, here]; rfl)
        { orderly
          engine := Engine.ext realised.running queue execution
          rests := rests_wake realised.rests
          unlocked := fun outside => realised.unlocked fun here =>
            outside (by rw [here]; rfl)
          control := rfl
          notifying := realised.notifying }
  | joinEngine here joined =>
      have returned : threads.thread = some .returned := by
        obtain ⟨-, -, -, -, -, -, returned⟩ := sections
        apply returned
        rw [realised.execution (by simp [here]), joined]
      exact .intro
        (Threads.performs_joining (realised.control.trans (by rw [here]; rfl))
          returned)
        (by rw [visible, here]; rfl)
        { orderly
          engine := Engine.ext realised.running queue rfl
          rests := by simp
          unlocked := fun _ => realised.unlocked (by simp [returned])
          control := rfl
          notifying := realised.notifying }
  | startSimulator here =>
      apply realised.unseen orderly
      · simp [visible, here, MainPoint.visible]
      · simp [engine, here]
      · simp [here, MainPoint.control]
      · exact fun book same => by cases same
  | _ here =>
      apply realised.unseen orderly
      · simp [visible, here, MainPoint.visible]
      · simp [engine, here, Bot.subscribe]
      · simp [here, MainPoint.control]
      · exact fun book same => same

theorem Phased.unfinished_of_market (phased : program.Phased)
    (alive : program.market ≠ .returned) : program.main ≠ .returned := by
  intro returned
  exact alive (phased.marketReturned (by simp [returned, MainPoint.remaining]))

theorem Phased.unfinished_of_execution (phased : program.Phased)
    (alive : program.execution ≠ .returned) : program.main ≠ .returned := by
  intro returned
  exact alive (phased.executionJoined (by simp [returned, MainPoint.remaining]))

/-- The market thread is outside `submitOrder`. -/
theorem matched_market (realised : program.Realised threads)
    {action : ApplicationAction} (orderly : next.Orderly)
    (hidden : program.visible action = [])
    (main : next.main = program.main)
    (running : next.engineRunning = program.engineRunning)
    (execution : next.execution = program.execution)
    (queue : next.bot.system.executionQueue =
      program.bot.system.executionQueue)
    (outside : ∀ book, next.market = .notifying book →
      program.market = .notifying book) :
    program.Matched action next threads := by
  apply realised.unseen orderly hidden _ (by rw [main]) outside
  simp only [engine, main, running, execution, queue]

theorem matched_submitOrder (realised : program.Realised threads)
    (orderly : next.Orderly) (stepped : program.submitOrder = some next) :
    program.Matched .submitOrder next threads := by
  unfold submitOrder at stepped
  split at stepped
  next book here =>
      split at stepped
      next => contradiction
      next free =>
          obtain ⟨bot, moved, rfl⟩ := Option.map_eq_some_iff.mp stepped
          obtain ⟨tick, request, waiting, submitting, rfl⟩ :=
            Bot.submitOrder_eq_some.mp moved
          have execution := realised.execution
            (realised.orderly.unfinished_of_market (by simp [here]))
          have unlocked := realised.unlocked fun blocking => free (by
            rw [← execution, blocking]
            rfl)
          have queue := realised.queue.append_right [request]
          have same := congrArg Engine.execution realised.engine
          exact .intro (Threads.performs_pushing request unlocked)
            (by simp [visible, submitting, FeedStage.request?])
            { orderly
              engine := Engine.ext realised.running
                (by simpa [engine, Threads.engine, Threads.calling,
                  System.submitOrder] using queue) same
              rests := realised.rests
              unlocked := fun _ => rfl
              control := realised.control
              notifying := fun _ _ => ⟨threads.calls.length, _,
                Threads.calling_last request .notify none _, rfl⟩ }
  next => contradiction

theorem matched_notifyOne (realised : program.Realised threads)
    (orderly : next.Orderly) (stepped : program.notifyOne = some next) :
    program.Matched .notifyOne next threads := by
  unfold notifyOne at stepped
  split at stepped
  next book here =>
      cases stepped
      obtain ⟨ticket, call, found, notify⟩ := realised.notifying book here
      have unfinished :=
        realised.orderly.unfinished_of_market (by simp [here])
      have queue := congrArg Engine.queue realised.engine
      have execution : Threads.execution (Threads.wake threads.thread) =
          program.execution.wake := by
        rw [Threads.execution_wake, realised.execution unfinished]
      exact .intro (Threads.performs_waking found notify) rfl
        { orderly
          engine := Engine.ext realised.running queue
            (execution.trans (if_neg unfinished).symm)
          rests := rests_wake realised.rests
          unlocked := fun outside => realised.unlocked fun here =>
            outside (by rw [here]; rfl)
          control := realised.control
          notifying := fun book notifying => by cases notifying }
  next => contradiction

/-- The loop has come to rest at `point`. -/
theorem Realised.rest (realised : program.Realised threads) {point : LoopPoint}
    {owner : Option Owner} {execution : ExecutionPoint}
    (orderly : Orderly { program with execution }) (rests : point.Rests)
    (unlocked : point ≠ .block → owner = none)
    (there : point.section = execution) (unfinished : program.main ≠ .returned) :
    Realised { program with execution }
      { threads with owner, thread := some point } := by
  have queue := congrArg Engine.queue realised.engine
  exact
    { orderly
      engine := Engine.ext realised.running queue
        (there.trans (if_neg unfinished).symm)
      rests := by simpa using rests
      unlocked := fun outside => unlocked fun here =>
        outside (congrArg some here)
      control := realised.control
      notifying := realised.notifying }

theorem matched_whileTest (realised : program.Realised threads)
    (here : program.execution = .whileTest) (orderly : next.Orderly)
    (moved : next = { program with
      execution := if program.engineRunning then .waitTest else .returned }) :
    program.Matched .advanceLoop next threads := by
  have unfinished :=
    realised.orderly.unfinished_of_execution (by simp [here])
  obtain ⟨_, whileTest, _⟩ := at_rest realised.rests
  have testing := whileTest (by rw [realised.execution unfinished, here])
  have unlocked := realised.unlocked (by simp [testing])
  have running := realised.running
  cases tested : program.engineRunning with
  | true =>
      have stays : Threads.machine.Performs Threads.visible threads [.advance]
          { threads with thread := some .acquire } :=
        Threads.performs_staying testing
          (by rw [running, tested]; rfl) rfl rfl
      rw [if_pos tested] at moved
      subst moved
      exact .intro stays rfl
        (realised.rest orderly trivial (fun _ => unlocked) rfl unfinished)
  | false =>
      have leaves : Threads.machine.Performs Threads.visible threads [.advance]
          { threads with thread := some .returned } :=
        Threads.performs_staying testing
          (by rw [running, tested]; rfl) rfl rfl
      rw [if_neg (by simp [tested])] at moved
      subst moved
      exact .intro leaves rfl
        (realised.rest orderly trivial (fun _ => unlocked) rfl unfinished)

theorem matched_waitTest (realised : program.Realised threads)
    (here : program.execution = .waitTest)
    (empty : program.bot.system.executionQueue = []) (orderly : next.Orderly)
    (moved : next = { program with
      execution := if program.engineRunning then .blocking else .returned }) :
    program.Matched .advanceLoop next threads := by
  have unfinished :=
    realised.orderly.unfinished_of_execution (by simp [here])
  obtain ⟨_, _, waitTest, _⟩ := at_rest realised.rests
  have waits := waitTest (by rw [realised.execution unfinished, here])
  have unlocked := realised.unlocked (by rcases waits with at_ | at_ <;> simp [at_])
  have drained : threads.queue = [] := by
    simpa [empty] using realised.queue
  have running := realised.running
  cases tested : program.engineRunning with
  | true =>
      rw [if_pos tested] at moved
      subst moved
      exact .intro
        (Threads.performs_blocking waits unlocked drained (running.trans tested))
        rfl
        (realised.rest orderly trivial (fun outside => absurd rfl outside) rfl
          unfinished)
  | false =>
      rw [if_neg (by simp [tested])] at moved
      subst moved
      exact .intro
        (Threads.performs_exiting waits unlocked drained (running.trans tested))
        rfl (realised.rest orderly trivial (fun _ => rfl) rfl unfinished)

theorem matched_advanceLoop (realised : program.Realised threads)
    (orderly : next.Orderly) (stepped : program.advanceLoop = some next) :
    program.Matched .advanceLoop next threads := by
  unfold advanceLoop at stepped
  split at stepped
  next here =>
      exact matched_whileTest realised here orderly (Option.some.inj stepped).symm
  next here =>
      obtain ⟨empty, moved⟩ := Option.ite_none_right_eq_some.mp stepped
      exact matched_waitTest realised here empty orderly
        (Option.some.inj moved).symm
  next here =>
      cases stepped
      have unfinished :=
        realised.orderly.unfinished_of_execution (by simp [here])
      obtain ⟨_, _, _, blocking, _⟩ := at_rest realised.rests
      have blocks := blocking (by rw [realised.execution unfinished, here])
      exact .intro (Threads.performs_leaving blocks rfl rfl rfl rfl) rfl
        (realised.rest orderly trivial (fun _ => rfl) rfl unfinished)
  next => contradiction

theorem matched_wakeSpuriously (realised : program.Realised threads)
    (orderly : next.Orderly) (stepped : program.wakeSpuriously = some next) :
    program.Matched .wakeSpuriously next threads := by
  obtain ⟨here, moved⟩ := Option.ite_none_right_eq_some.mp stepped
  cases moved
  have unfinished :=
    realised.orderly.unfinished_of_execution (by simp [here])
  obtain ⟨_, _, _, _, blocked, _⟩ := at_rest realised.rests
  have blocks := blocked (by rw [realised.execution unfinished, here])
  have woken : Threads.machine.step threads .wakeSpuriously =
      some { threads with thread := some .reacquire } :=
    Threads.wakeSpuriously_eq_some.mpr ⟨blocks, rfl⟩
  have unlocked := realised.unlocked (by simp [blocks])
  exact .intro (.single woken) rfl
    (realised.rest orderly trivial (fun _ => unlocked) rfl unfinished)

theorem matched_takeRequest (realised : program.Realised threads)
    {request : ExecutionRequest} (orderly : next.Orderly)
    (stepped : program.takeRequest request = some next) :
    program.Matched (.takeRequest request) next threads := by
  obtain ⟨here, moved⟩ := Option.ite_none_right_eq_some.mp stepped
  obtain ⟨bot, taken, rfl⟩ := Option.map_eq_some_iff.mp moved
  obtain ⟨system, popped, rfl⟩ := Bot.loopStep_eq_some.mp taken
  obtain ⟨_, top, rfl⟩ := System.takeRequest_eq_some.mp popped
  have unfinished :=
    realised.orderly.unfinished_of_execution (by simp [here])
  obtain ⟨_, _, waitTest, _⟩ := at_rest realised.rests
  have waits := waitTest (by rw [realised.execution unfinished, here])
  have unlocked := realised.unlocked (by
    rcases waits with there | there <;> simp [there])
  obtain ⟨entry, member, rfl⟩ :=
    List.mem_map.mp (realised.queue.mem_iff.mpr top.1)
  have foremost : IsTop (threads.queue.map Queued.request) entry.request :=
    ⟨List.mem_map_of_mem member, fun other queued =>
      top.2 other (realised.queue.mem_iff.mp queued)⟩
  have queue : ((threads.queue.erase entry).map Queued.request).Perm
      (program.bot.system.executionQueue.erase entry.request) :=
    (Threads.erase_request member).symm.trans (realised.queue.erase _)
  exact .intro (Threads.performs_taking waits unlocked member foremost) rfl
    { orderly
      engine := Engine.ext realised.running (Multiset.coe_eq_coe.mpr queue)
        (if_neg unfinished).symm
      rests := by simp [LoopPoint.Rests]
      unlocked := fun _ => rfl
      control := realised.control
      notifying := realised.notifying }

theorem matched_recordLatency (realised : program.Realised threads)
    {latency : UInt64} (orderly : next.Orderly)
    (stepped : program.executeStep (.recordLatency latency) .whileTest =
      some next) :
    program.Matched (.recordLatency latency) next threads := by
  obtain ⟨here, bot, recorded, rfl⟩ := executeStep_eq_some.mp stepped
  obtain ⟨system, finished, rfl⟩ := Bot.loopStep_eq_some.mp recorded
  obtain ⟨_, _, _, rfl⟩ := System.recordLatency_eq_some.mp finished
  have unfinished :=
    realised.orderly.unfinished_of_execution (by simp [here])
  obtain ⟨_, _, _, _, _, executing, _⟩ := at_rest realised.rests
  obtain ⟨entry, executes⟩ :=
    executing (by rw [realised.execution unfinished, here])
  have unlocked := realised.unlocked (by simp [executes])
  have queue := congrArg Engine.queue realised.engine
  exact .intro (Threads.performs_staying executes rfl rfl rfl) rfl
    { orderly
      engine := Engine.ext realised.running queue (if_neg unfinished).symm
      rests := by simp [LoopPoint.Rests]
      unlocked := fun _ => unlocked
      control := realised.control
      notifying := realised.notifying }

theorem matched_listener (realised : program.Realised threads)
    {action : ApplicationAction} {call : BotAction}
    (calls : call = .onTick ∨ call = .placeOrder ∨ call = .returnOnTick)
    (orderly : next.Orderly) (hidden : program.visible action = [])
    (stepped : program.listenerStep (program.bot.step call) = some next) :
    program.Matched action next threads := by
  obtain ⟨book, bot, here, moved, rfl⟩ := listenerStep_eq_some.mp stepped
  obtain ⟨_, _, _, queue⟩ := listener_frame calls moved
  exact matched_market realised orderly hidden rfl rfl rfl queue
    fun _ same => same

theorem matched_execute (realised : program.Realised threads)
    {action : ApplicationAction} {call : BotAction}
    (calls : call = .getLatestTick ∨ call = .simulateOrderExecution ∨
      ∃ executedAt, call = .simulateTrade executedAt)
    (orderly : next.Orderly) (hidden : program.visible action = [])
    (stepped : program.executeStep call .executing = some next) :
    program.Matched action next threads := by
  obtain ⟨here, bot, moved, rfl⟩ := executeStep_eq_some.mp stepped
  obtain ⟨_, _, _, queue⟩ := execute_frame calls moved
  exact matched_market realised orderly hidden rfl rfl here.symm queue
    fun _ same => same

theorem matched_step {action : ApplicationAction}
    (realised : program.Realised threads)
    (stepped : program.step action = some next) :
    program.Matched action next threads := by
  have orderly := realised.orderly.step stepped
  cases action with
  | main => exact matched_mainStep realised orderly (mainStep_cases stepped)
  | testMarket =>
      obtain ⟨here, moved⟩ := Option.ite_none_right_eq_some.mp stepped
      cases moved
      apply matched_market realised orderly rfl rfl rfl rfl rfl
      intro book notifying
      dsimp only at notifying
      split at notifying <;> cases notifying
  | publishTick round =>
      simp only [step, publishTick, Option.ite_none_right_eq_some,
        Option.map_eq_some_iff] at stepped
      obtain ⟨here, bot, published, rfl⟩ := stepped
      obtain ⟨_, _, rfl⟩ := Bot.publishTick_eq_some.mp published
      exact matched_market realised orderly rfl rfl rfl rfl rfl
        fun book notifying => by cases notifying
  | onTick =>
      exact matched_listener realised (.inl rfl) orderly rfl stepped
  | placeOrder =>
      exact matched_listener realised (.inr (.inl rfl)) orderly rfl stepped
  | submitOrder => exact matched_submitOrder realised orderly stepped
  | notifyOne => exact matched_notifyOne realised orderly stepped
  | returnOnTick =>
      exact matched_listener realised (.inr (.inr rfl)) orderly rfl stepped
  | returnPublishTick =>
      simp only [step, returnPublishTick] at stepped
      split at stepped
      next book here =>
          obtain ⟨bot, moved, rfl⟩ := Option.map_eq_some_iff.mp stepped
          obtain ⟨_, _, rfl⟩ := Bot.returnPublishTick_eq_some.mp moved
          exact matched_market realised orderly rfl rfl rfl rfl rfl
            fun book notifying => by cases notifying
      next => contradiction
  | publishOrderBook =>
      simp only [step, publishOrderBook] at stepped
      split at stepped
      next book here =>
          obtain ⟨bot, moved, rfl⟩ := Option.map_eq_some_iff.mp stepped
          obtain ⟨_, rfl⟩ := Bot.publishOrderBook_eq_some.mp moved
          exact matched_market realised orderly rfl rfl rfl rfl rfl
            fun book notifying => by cases notifying
      next => contradiction
  | wakeUp =>
      obtain ⟨here, moved⟩ := Option.ite_none_right_eq_some.mp stepped
      cases moved
      exact matched_market realised orderly rfl rfl rfl rfl rfl
        fun book notifying => by cases notifying
  | advanceLoop => exact matched_advanceLoop realised orderly stepped
  | takeRequest request => exact matched_takeRequest realised orderly stepped
  | getLatestTick =>
      exact matched_execute realised (.inl rfl) orderly rfl stepped
  | simulateOrderExecution =>
      exact matched_execute realised (.inr (.inl rfl)) orderly rfl stepped
  | simulateTrade executedAt =>
      exact matched_execute realised (.inr (.inr ⟨_, rfl⟩)) orderly rfl stepped
  | recordLatency latency =>
      exact matched_recordLatency realised orderly stepped
  | wakeSpuriously => exact matched_wakeSpuriously realised orderly stepped

/-- Whatever the program does to its engine, the statements of its three threads
can do, one at a time. -/
theorem statements_perform {actions : List ApplicationAction}
    (ran : machine.run init actions = some program) :
    (∃ statements final,
      Threads.machine.run Threads.init statements = some final ∧
      Threads.machine.record Threads.visible Threads.init statements =
        machine.record visible init actions ∧
      final.engine = program.engine) ∧
    Engine.machine.run Engine.init (machine.record visible init actions) =
      some program.engine := by
  obtain ⟨final, ⟨statements, performed, same⟩, realised⟩ :=
    Machine.performs_of_run Realised realised_init
      (fun _ _ _ _ realised stepped => matched_step realised stepped) ran
  refine ⟨⟨statements, final, performed, same, realised.engine⟩, ?_⟩
  rw [← same, ← realised.engine]
  exact Threads.simulates_run performed

private def onlyRequest : ExecutionRequest :=
  requestFor 1000 (signalOrder "AAPL" .buy (10099 / 100)) default

theorem statements_perform_traded :
    ∃ statements final,
      Threads.machine.run Threads.init statements = some final ∧
        Threads.machine.record Threads.visible Threads.init statements =
          [.setRunning, .spawn, .push onlyRequest, .notify, .advance,
            .take onlyRequest, .finish, .clearRunning, .notify, .advance,
            .join] := by
  have ends : (machine.run init sessionOfOne).isSome := by decide +kernel
  obtain ⟨program, ran⟩ := Option.isSome_iff_exists.mp ends
  obtain ⟨⟨statements, final, performed, same, _⟩, _⟩ := statements_perform ran
  refine ⟨statements, final, performed, same.trans ?_⟩
  decide +kernel

end Application

end TradingBot
