import TradingBot.Threads.Orderly
import TradingBot.Engine

namespace TradingBot

open Library

/-! Every statement of `executionLoop`, `submitOrder`, `start` and `stop` is a
section of the engine or not seen at all. -/

/-- The section a program point of the loop lies in. -/
def LoopPoint.section : LoopPoint → ExecutionPoint
  | .whileTest | .leave .again => .whileTest
  | .acquire | .predQueue | .predRunning | .reacquire | .exitRunning
  | .exitQueue | .continueTest | .take => .waitTest
  | .block => .blocking
  | .blocked => .blocked
  | .leave (.run _) | .execute _ => .executing
  | .leave .exit | .returned => .returned

def LoopPoint.visible (running : Bool) (queue : List Queued) :
    LoopPoint → List EngineAction
  | .whileTest | .block => [.advance]
  | .predRunning => if running then [.advance] else []
  | .exitQueue => if queue = [] then [.advance] else []
  | .execute _ => [.finish]
  | _ => []

def SubmitCall.visible (call : SubmitCall) : List EngineAction :=
  match call.point with
  | .push => [.push call.request]
  | .notify => [.notify]
  | _ => []

def ControlPoint.visible : ControlPoint → List EngineAction
  | .ready => []
  | .spawn => [.spawn]
  | .storeRunning => [.clearRunning]
  | .notifyAll => [.notify]
  | .join => [.join]

namespace Threads

def execution (thread : Option LoopPoint) : ExecutionPoint :=
  thread.elim .absent LoopPoint.section

def engine (threads : Threads) : Engine where
  running := threads.running
  queue := threads.queue.map Queued.request
  execution := execution threads.thread

/-- What a step does to the engine. -/
def visible (threads : Threads) : ThreadAction → List EngineAction
  | .submitOrder _ | .stop => []
  | .advance ticket => (threads.calls[ticket]?).elim [] SubmitCall.visible
  | .start => [.setRunning]
  | .advanceControl => threads.control.visible
  | .advanceLoop =>
      threads.thread.elim [] (LoopPoint.visible threads.running threads.queue)
  | .takeRequest entry => [.take entry.request]
  | .wakeSpuriously => [.wakeSpuriously]

/-- What the loop has found out while it holds the lock; it never gets to its
`continue`. -/
structure Informed (threads : Threads) : Prop extends Orderly threads where
  empty : threads.thread = some .predRunning ∨ threads.thread = some .block →
    threads.queue = []
  ready : threads.thread = some .exitRunning →
    threads.queue ≠ [] ∨ threads.running = false
  nonempty : threads.thread = some .continueTest ∨
    threads.thread = some .take → threads.queue ≠ []
  noContinue : threads.thread ≠ some (.leave .again)

theorem informed_init : init.Informed where
  toOrderly := orderly_init
  empty := by simp [init]
  ready := by simp [init]
  nonempty := by simp [init]
  noContinue := by simp [init]

variable {threads next : Threads}

theorem Informed.wake (informed : threads.Informed) :
    Informed { threads with thread := wake threads.thread } where
  toOrderly := informed.toOrderly.wake
  empty testing := informed.empty
    (testing.imp (fun here => of_wake_eq here (by simp))
      (fun here => of_wake_eq here (by simp)))
  ready leaving := informed.ready (of_wake_eq leaving (by simp))
  nonempty taking := informed.nonempty
    (taking.imp (fun here => of_wake_eq here (by simp))
      (fun here => of_wake_eq here (by simp)))
  noContinue again := informed.noContinue (of_wake_eq again (by simp))

theorem Informed.advance (informed : threads.Informed) {ticket : Nat}
    (stepped : threads.advance ticket = some next) : next.Informed := by
  have orderly := informed.toOrderly.advance stepped
  obtain ⟨call, found, ⟨_, _, rfl⟩ | ⟨point, rfl⟩ | ⟨_, rfl⟩ | ⟨_, rfl⟩⟩ :=
    advance_eq_some stepped
  · exact ⟨orderly, informed.empty, informed.ready, informed.nonempty,
      informed.noContinue⟩
  · -- the caller has the lock, so the loop is not testing
    have owns := informed.callerOwns ticket ((callAt_own found).mpr (by
      simp [point, SubmitPoint.holdsLock]))
    refine ⟨orderly, fun testing => ?_, fun _ => .inl (by simp),
      fun _ => by simp, informed.noContinue⟩
    rcases testing with testing | testing <;>
      · rw [informed.loopOwns _ testing rfl] at owns
        cases owns
  · exact ⟨orderly, informed.empty, informed.ready, informed.nonempty,
      informed.noContinue⟩
  · exact ⟨orderly, informed.wake.empty, informed.wake.ready,
      informed.wake.nonempty, informed.wake.noContinue⟩

theorem Informed.advanceControl (informed : threads.Informed)
    (stepped : threads.advanceControl = some next) : next.Informed := by
  have orderly := informed.toOrderly.advanceControl stepped
  obtain ⟨_, rfl⟩ | ⟨_, rfl⟩ | ⟨_, rfl⟩ | ⟨_, _, rfl⟩ :=
    advanceControl_eq_some stepped
  · exact ⟨orderly, by simp, by simp, by simp, by simp⟩
  · exact ⟨orderly, informed.empty, fun _ => .inr rfl, informed.nonempty,
      informed.noContinue⟩
  · exact ⟨orderly, informed.wake.empty, informed.wake.ready,
      informed.wake.nonempty, informed.wake.noContinue⟩
  · exact ⟨orderly, by simp, by simp, by simp, by simp⟩

/-- What the loop has just found out. -/
theorem informed_of_next {running : Bool} {queue : List Queued}
    {point after : LoopPoint}
    (moved : point.next running queue = some after) :
    (after = .predRunning → queue = []) ∧
      (after = .block → point = .predRunning) ∧
      (after = .exitRunning → queue ≠ [] ∨ running = false) ∧
      (after = .continueTest →
        point = .exitRunning ∧ running = true ∨ queue ≠ []) ∧
      (after = .take → queue ≠ []) ∧
      (after = .leave .again → point = .continueTest ∧ queue = []) := by
  cases point with
  | leave leave => cases leave <;> cases moved <;> simp
  | _ =>
      simp only [LoopPoint.next] at moved
      grind

theorem Informed.advanceLoop (informed : threads.Informed)
    (stepped : threads.advanceLoop = some next) : next.Informed := by
  have orderly := informed.toOrderly.advanceLoop stepped
  obtain ⟨point, after, owner, thread, moved, rfl⟩ := advanceLoop_moves stepped
  obtain ⟨empty, blocks, leaves, continues, takes, again⟩ :=
    informed_of_next moved
  refine ⟨orderly, ?_, ?_, ?_, ?_⟩
  · intro testing
    rcases testing with here | here
    · exact empty (Option.some.inj here)
    · rw [blocks (Option.some.inj here)] at thread
      exact informed.empty (.inl thread)
  · exact fun here => leaves (Option.some.inj here)
  · intro taking
    rcases taking with here | here
    · rcases continues (Option.some.inj here) with ⟨rfl, running⟩ | nonempty
      · refine (informed.ready thread).resolve_right ?_
        simp [show threads.running = true from running]
      · exact nonempty
    · exact takes (Option.some.inj here)
  · intro here
    obtain ⟨rfl, drained⟩ := again (Option.some.inj here)
    exact informed.nonempty (.inl thread) drained

theorem Informed.step {action : ThreadAction} (informed : threads.Informed)
    (stepped : threads.step action = some next) : next.Informed := by
  have orderly := informed.toOrderly.step stepped
  cases action with
  | submitOrder request =>
      cases stepped
      exact ⟨orderly, informed.empty, informed.ready, informed.nonempty,
        informed.noContinue⟩
  | advance ticket => exact informed.advance stepped
  | start =>
      obtain ⟨ready, rfl⟩ := start_eq_some.mp stepped
      refine ⟨orderly, informed.empty, fun leaving => ?_, informed.nonempty,
        informed.noContinue⟩
      have running := informed.running_at_ready ready (by
        rw [show threads.thread = some .exitRunning from leaving]
        simp)
      refine .inl ((informed.ready leaving).resolve_right ?_)
      simp [running]
  | stop =>
      obtain ⟨_, rfl⟩ := stop_eq_some.mp stepped
      exact ⟨orderly, informed.empty, informed.ready, informed.nonempty,
        informed.noContinue⟩
  | advanceControl => exact informed.advanceControl stepped
  | advanceLoop => exact informed.advanceLoop stepped
  | takeRequest entry =>
      obtain ⟨_, rfl⟩ := takeRequest_eq_some.mp stepped
      exact ⟨orderly, by simp, by simp, by simp, by simp⟩
  | wakeSpuriously =>
      obtain ⟨_, rfl⟩ := wakeSpuriously_eq_some.mp stepped
      exact ⟨orderly, by simp, by simp, by simp, by simp⟩

theorem execution_wake (thread : Option LoopPoint) :
    execution (wake thread) = (execution thread).wake := by
  cases thread with
  | none => rfl
  | some point =>
      cases point with
      | leave leave => cases leave <;> rfl
      | _ => rfl

theorem execution_eq_blocking {thread : Option LoopPoint} :
    execution thread = .blocking ↔ thread = some .block := by
  cases thread with
  | none => simp [execution]
  | some point =>
      cases point with
      | leave leave => cases leave <;> simp [execution, LoopPoint.section]
      | _ => simp [execution, LoopPoint.section]

theorem engine_notified :
    threads.engine.step .notify =
      some (engine { threads with thread := wake threads.thread }) := by
  rw [Engine.step, engine, engine, execution_wake]

theorem simulates_advance (informed : threads.Informed) {ticket : Nat}
    (stepped : threads.advance ticket = some next) :
    Engine.machine.run threads.engine (threads.visible (.advance ticket)) =
      some next.engine := by
  obtain ⟨call, found, outcome⟩ := advance_eq_some stepped
  simp only [visible, found, Option.elim_some, SubmitCall.visible]
  rcases outcome with ⟨point, _, rfl⟩ | ⟨point, rfl⟩ | ⟨point, rfl⟩ | ⟨point, rfl⟩
  · rw [point]
    rfl
  · have owns := informed.callerOwns ticket ((callAt_own found).mpr (by
      simp [point, SubmitPoint.holdsLock]))
    have unblocked : threads.engine.execution ≠ .blocking := by
      intro blocking
      rw [informed.loopOwns .block (execution_eq_blocking.mp blocking) rfl]
        at owns
      cases owns
    rw [point]
    refine Machine.run_single ((if_neg unblocked).trans ?_)
    have pushed := (List.perm_append_singleton call.request
      (threads.queue.map Queued.request)).symm
    simpa [engine] using pushed
  · rw [point]
    rfl
  · rw [point]
    exact Machine.run_single engine_notified

theorem simulates_advanceControl (informed : threads.Informed)
    (stepped : threads.advanceControl = some next) :
    Engine.machine.run threads.engine (threads.visible .advanceControl) =
      some next.engine := by
  simp only [visible]
  obtain ⟨here, rfl⟩ | ⟨here, rfl⟩ | ⟨here, rfl⟩ | ⟨here, joined, rfl⟩ :=
    advanceControl_eq_some stepped
  · have absent : threads.engine.execution = .absent := by
      simp [engine, execution, (informed.spawning here).1]
    rw [here]
    exact Machine.run_single (if_pos absent)
  · rw [here]
    exact Machine.run_single rfl
  · rw [here]
    exact Machine.run_single engine_notified
  · have ended : threads.engine.execution = .absent ∨
        threads.engine.execution = .returned := by
      rcases joined with absent | returned
      · simp [engine, execution, absent]
      · simp [engine, execution, returned, LoopPoint.section]
    rw [here]
    exact Machine.run_single (if_pos ended)

/-- One statement of the loop, with what it knows when it gets there. -/
theorem simulates_next {running : Bool} {queue : List Queued}
    {point after : LoopPoint}
    (moved : point.next running queue = some after)
    (empty : point = .predRunning ∨ point = .block → queue = [])
    (exiting : point = .exitQueue → running = false)
    (noContinue : after ≠ .leave .again) :
    Engine.machine.run
        ⟨running, queue.map Queued.request, point.section⟩
        (point.visible running queue) =
      some ⟨running, queue.map Queued.request, after.section⟩ := by
  cases point with
  | whileTest =>
      cases running <;> cases moved <;> rfl
  | predRunning =>
      obtain rfl := empty (.inl rfl)
      cases running <;> cases moved <;> rfl
  | exitQueue =>
      obtain rfl := exiting rfl
      simp only [LoopPoint.next] at moved
      split at moved
      next drained =>
          subst drained
          cases moved
          rfl
      next more =>
          cases moved
          simp [LoopPoint.visible, more, LoopPoint.section]
  | continueTest =>
      simp only [LoopPoint.next] at moved
      split at moved
      next =>
          cases moved
          exact absurd rfl noContinue
      next =>
          cases moved
          rfl
  | predQueue | exitRunning =>
      simp only [LoopPoint.next] at moved
      split at moved <;> cases moved <;> rfl
  | leave leave => cases leave <;> cases moved <;> rfl
  | blocked | take | returned => cases moved
  | _ => cases moved; rfl

theorem simulates_advanceLoop (informed : threads.Informed)
    (stepped : threads.advanceLoop = some next) :
    Engine.machine.run threads.engine (threads.visible .advanceLoop) =
      some next.engine := by
  have noContinue := (informed.advanceLoop stepped).noContinue
  obtain ⟨point, after, owner, thread, moved, rfl⟩ := advanceLoop_moves stepped
  simp only [visible, engine, execution, thread, Option.elim_some]
  refine simulates_next moved (fun testing => ?_) (fun leaving => ?_)
    (fun again => noContinue (congrArg some again))
  · rcases testing with rfl | rfl
    · exact informed.empty (.inl thread)
    · exact informed.empty (.inr thread)
  · exact informed.exiting point thread (leaving ▸ trivial)

theorem erase_request {queue : List Queued} {entry : Queued}
    (member : entry ∈ queue) :
    ((queue.map Queued.request).erase entry.request).Perm
      ((queue.erase entry).map Queued.request) := by
  have split := (List.perm_cons_erase member).map Queued.request
  have erased := List.perm_cons_erase
    (List.mem_map_of_mem (f := Queued.request) member)
  exact (erased.symm.trans split).cons_inv

theorem simulates_takeRequest {entry : Queued}
    (stepped : threads.takeRequest entry = some next) :
    Engine.machine.run threads.engine (threads.visible (.takeRequest entry)) =
      some next.engine := by
  obtain ⟨⟨here, member, top⟩, rfl⟩ := takeRequest_eq_some.mp stepped
  have waiting : threads.engine.execution = .waitTest := by
    simp [engine, execution, here, LoopPoint.section]
  refine Machine.run_single
    ((if_pos ⟨waiting, Engine.top_coe.mpr top⟩).trans ?_)
  refine congrArg some (Engine.ext rfl ?_ rfl)
  rw [engine, engine, Multiset.coe_erase, Multiset.coe_eq_coe]
  exact erase_request member

theorem simulates_step {action : ThreadAction} (informed : threads.Informed)
    (stepped : threads.step action = some next) :
    Engine.machine.run threads.engine (threads.visible action) =
      some next.engine := by
  cases action with
  | submitOrder request =>
      cases stepped
      rfl
  | advance ticket => exact simulates_advance informed stepped
  | start =>
      obtain ⟨_, rfl⟩ := start_eq_some.mp stepped
      exact Machine.run_single rfl
  | stop =>
      obtain ⟨_, rfl⟩ := stop_eq_some.mp stepped
      rfl
  | advanceControl => exact simulates_advanceControl informed stepped
  | advanceLoop => exact simulates_advanceLoop informed stepped
  | takeRequest entry => exact simulates_takeRequest stepped
  | wakeSpuriously =>
      obtain ⟨here, rfl⟩ := wakeSpuriously_eq_some.mp stepped
      have blocked : threads.engine.execution = .blocked := by
        simp [engine, execution, here, LoopPoint.section]
      exact Machine.run_single (if_pos blocked)

theorem simulates_run {actions : List ThreadAction} {final : Threads}
    (ran : machine.run init actions = some final) :
    Engine.machine.run Engine.init (machine.record visible init actions) =
      some final.engine :=
  Machine.run_simulates engine visible Informed informed_init
    (fun _ _ _ informed => informed.step)
    (fun _ _ _ informed => simulates_step informed) ran

/-- Read section by section, every interleaving of the statements is a run of
the engine, and the loop never executes its `continue`. -/
theorem engine_refined {actions : List ThreadAction} {final : Threads}
    (ran : machine.run init actions = some final) :
    Engine.machine.run Engine.init (machine.record visible init actions) =
        some final.engine ∧
      final.thread ≠ some (.leave .again) := by
  have informed := Machine.reachable_preserves Informed informed_init
    ⟨actions, ran⟩ (fun _ _ _ informed => informed.step)
  exact ⟨simulates_run ran, informed.noContinue⟩

private def limitBuy : ExecutionRequest :=
  { orderId := 1000, symbol := "AAPL", side := .buy, price := 100,
    quantity := 100, priority := .normal, timestamp := default }

/-- The push comes between the loop's test of `running` and its lock. -/
private def pushedAndTaken : List ThreadAction :=
  [.start, .advanceControl, .submitOrder limitBuy, .advanceLoop, .advance 0,
    .advance 0, .advance 0, .advanceLoop, .advanceLoop, .advance 0,
    .advanceLoop, .advanceLoop, .takeRequest ⟨0, limitBuy⟩, .advanceLoop,
    .advanceLoop]

theorem engine_refined_taken :
    ∃ final, machine.run init pushedAndTaken = some final ∧
      Engine.machine.run Engine.init
        [.setRunning, .spawn, .advance, .push limitBuy, .notify,
          .take limitBuy, .finish] = some final.engine :=
  ⟨_, rfl, (engine_refined
    (show machine.run init pushedAndTaken = some _ from rfl)).1⟩

end Threads

end TradingBot
