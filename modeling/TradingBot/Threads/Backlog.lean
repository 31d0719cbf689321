import TradingBot.Threads.Sections
import TradingBot.Library.Backlog

namespace TradingBot

open Library

/-! In which orders the loop can execute what has piled up in its queue. -/

/-- No later in the queue's order. -/
def ExecutionRequest.Precedes (request other : ExecutionRequest) : Prop :=
  request.priority.toInt ≤ other.priority.toInt

instance (request other : ExecutionRequest) :
    Decidable (request.Precedes other) :=
  inferInstanceAs (Decidable (_ ≤ _))

def EngineAction.taken? : EngineAction → Option ExecutionRequest
  | .take request => some request
  | _ => none

def EngineAction.pushed? : EngineAction → Option ExecutionRequest
  | .push request => some request
  | _ => none

namespace Engine

theorem top_iff {queue : Multiset ExecutionRequest} {request : ExecutionRequest} :
    Top queue request ↔ Foremost ExecutionRequest.Precedes queue request := by
  simp [Top, Foremost, ExecutionRequest.after, ExecutionRequest.Precedes]

/-- Only `push` and `take` touch the queue. -/
theorem queue_step {engine next : Engine} {action : EngineAction}
    (stepped : engine.step action = some next)
    (quiet : action.pushed? = none) :
    (∃ request, action = .take request ∧ Top engine.queue request ∧
        next.queue = engine.queue.erase request) ∨
      action.taken? = none ∧ next.queue = engine.queue := by
  cases action with
  | push request => cases quiet
  | take request =>
      obtain ⟨⟨_, top⟩, moved⟩ := Option.ite_none_right_eq_some.mp stepped
      cases moved
      exact .inl ⟨request, rfl, top, rfl⟩
  | advance =>
      refine .inr ⟨rfl, ?_⟩
      simp only [step, advance] at stepped
      split at stepped
      next =>
          cases stepped
          rfl
      next =>
          obtain ⟨_, moved⟩ := Option.ite_none_right_eq_some.mp stepped
          cases moved
          rfl
      next =>
          cases stepped
          rfl
      next => cases stepped
  | setRunning | clearRunning | notify =>
      cases stepped
      exact .inr ⟨rfl, rfl⟩
  | spawn | join | finish | wakeSpuriously =>
      obtain ⟨_, moved⟩ := Option.ite_none_right_eq_some.mp stepped
      cases moved
      exact .inr ⟨rfl, rfl⟩

/-- What a run takes while nothing is pushed. -/
theorem run_releases {engine final : Engine} {actions : List EngineAction}
    (ran : machine.run engine actions = some final)
    (quiet : actions.filterMap EngineAction.pushed? = []) :
    Released ExecutionRequest.Precedes engine.queue
      (actions.filterMap EngineAction.taken?) final.queue := by
  induction actions generalizing engine with
  | nil =>
      cases ran
      exact .nil _
  | cons action rest induction =>
      obtain ⟨next, stepped, ran⟩ := Machine.run_cons_eq_some.mp ran
      rw [List.filterMap_eq_nil_iff, List.forall_mem_cons,
        ← List.filterMap_eq_nil_iff] at quiet
      have later := induction ran quiet.2
      rcases queue_step stepped quiet.1 with ⟨request, rfl, top, erased⟩ |
        ⟨none, same⟩
      · rw [erased] at later
        exact .cons (top_iff.mp top) later
      · rw [same] at later
        rwa [List.filterMap_cons_none none]

end Engine

namespace Threads

variable {threads : Threads}

/-- The loop waits for its lock, and nobody has it. -/
structure Waiting (threads : Threads) : Prop where
  waits : threads.thread = some .acquire ∨ threads.thread = some .reacquire
  unlocked : threads.owner = none
  running : threads.running = true

/-- One request executed, and the loop waits again. -/
theorem Waiting.executes (waiting : threads.Waiting) {request : ExecutionRequest}
    (foremost : Foremost ExecutionRequest.Precedes threads.engine.queue request) :
    ∃ next, machine.Performs visible threads [.take request, .finish, .advance]
        next ∧
      next.Waiting ∧ next.engine.queue = threads.engine.queue.erase request := by
  obtain ⟨waits, unlocked, running⟩ := waiting
  have top : IsTop (threads.queue.map Queued.request) request :=
    Engine.top_coe.mp (Engine.top_iff.mpr foremost)
  obtain ⟨entry, member, rfl⟩ := List.mem_map.mp top.1
  have taking := performs_taking waits unlocked member top
  have finishing : machine.Performs visible
      { threads with
        queue := threads.queue.erase entry
        owner := none
        thread := some (.execute entry) } [.finish]
      { threads with
        queue := threads.queue.erase entry
        owner := none
        thread := some .whileTest } :=
    performs_staying rfl rfl rfl rfl
  have testing : machine.Performs visible
      { threads with
        queue := threads.queue.erase entry
        owner := none
        thread := some .whileTest } [.advance]
      { threads with
        queue := threads.queue.erase entry
        owner := none
        thread := some .acquire } :=
    performs_staying rfl (by rw [running]; rfl) rfl rfl
  refine ⟨_, taking.trans (finishing.trans testing), ⟨.inl rfl, rfl, running⟩, ?_⟩
  rw [engine, engine, Multiset.coe_erase, Multiset.coe_eq_coe]
  exact (erase_request member).symm

/-- A waiting loop can take whatever its queue can release. -/
theorem Waiting.takes {taken : List ExecutionRequest}
    {bag left : Multiset ExecutionRequest}
    (releases : Released ExecutionRequest.Precedes bag taken left)
    (waiting : threads.Waiting) (queued : threads.engine.queue = bag) :
    ∃ events next, machine.Performs visible threads events next ∧
      events.filterMap EngineAction.pushed? = [] ∧
      events.filterMap EngineAction.taken? = taken := by
  induction releases generalizing threads with
  | nil bag => exact ⟨[], threads, .refl threads, rfl, rfl⟩
  | cons foremost rest induction =>
      subst queued
      obtain ⟨middle, first, waiting, queue⟩ := waiting.executes foremost
      obtain ⟨events, next, second, quiet, taken⟩ := induction waiting queue
      exact ⟨_, next, first.trans second,
        by simpa [EngineAction.pushed?] using quiet,
        by simpa [List.filterMap_cons, EngineAction.taken?] using taken⟩

theorem mem_enumerates_iff {taken : List ExecutionRequest} :
    (∃ left, Enumerates ExecutionRequest.Precedes threads.engine.queue taken
        left) ↔
      ∃ left, (threads.queue.map Queued.request).Perm (taken ++ left) ∧
        taken.Pairwise ExecutionRequest.Precedes ∧
        ∀ first ∈ taken, ∀ second ∈ left, first.Precedes second := by
  constructor
  · rintro ⟨left, whole, sorted, ahead⟩
    refine ⟨left.toList, ?_, sorted, by simpa using ahead⟩
    rw [← Multiset.coe_eq_coe, ← Multiset.coe_add, Multiset.coe_toList]
    exact whole
  · rintro ⟨left, whole, sorted, ahead⟩
    refine ⟨left, ?_, sorted, by simpa using ahead⟩
    rw [engine, Multiset.coe_add, Multiset.coe_eq_coe]
    exact whole

/-- While nothing more is pushed, a waiting loop takes its requests by priority,
and it may take them in any order that goes by priority. -/
theorem backlog_orders {actions : List ThreadAction}
    (ran : machine.run init actions = some threads) (waiting : threads.Waiting)
    (order : List ExecutionRequest) :
    (∃ statements final, machine.run threads statements = some final ∧
        (machine.record visible threads statements).filterMap
          EngineAction.pushed? = [] ∧
        (machine.record visible threads statements).filterMap
          EngineAction.taken? = order) ↔
      ∃ left, (threads.queue.map Queued.request).Perm (order ++ left) ∧
        order.Pairwise ExecutionRequest.Precedes ∧
        ∀ first ∈ order, ∀ second ∈ left, first.Precedes second := by
  have informed := Machine.reachable_preserves Informed informed_init
    ⟨actions, ran⟩ (fun _ _ _ informed => informed.step)
  rw [← mem_enumerates_iff]
  constructor
  · rintro ⟨statements, final, continued, quiet, rfl⟩
    have stands := Machine.run_simulates engine visible Informed informed
      (fun _ _ _ earlier => earlier.step)
      (fun _ _ _ earlier => simulates_step earlier) continued
    exact ⟨_, (Engine.run_releases stands quiet).enumerates⟩
  · rintro ⟨left, enumerates⟩
    obtain ⟨events, final, ⟨statements, continued, rfl⟩, quiet, taken⟩ :=
      waiting.takes (enumerates.releases fun _ => Int.le_refl _) rfl
    exact ⟨statements, final, continued, quiet, taken⟩

private def requestFrom (orderId : UInt64) (priority : ExecutionPriority) :
    ExecutionRequest :=
  { orderId, symbol := "AAPL", side := .buy, price := 100, quantity := 100,
    priority, timestamp := default }

/-- Two `NORMAL` requests and a `HIGH` one before the loop gets its lock. -/
private def piledUp : List ThreadAction :=
  [.start, .advanceControl, .submitOrder (requestFrom 1000 .normal),
      .submitOrder (requestFrom 1001 .normal),
      .submitOrder (requestFrom 1002 .high)] ++
    List.replicate 4 (.advance 0) ++ List.replicate 4 (.advance 1) ++
    List.replicate 4 (.advance 2) ++ [.advanceLoop]

theorem backlog_orders_piledUp :
    ∃ threads, machine.run init piledUp = some threads ∧
      ∀ order ∈ [[requestFrom 1002 .high, requestFrom 1000 .normal,
          requestFrom 1001 .normal],
        [requestFrom 1002 .high, requestFrom 1001 .normal,
          requestFrom 1000 .normal]],
      ∃ statements final, machine.run threads statements = some final ∧
        (machine.record visible threads statements).filterMap
          EngineAction.taken? = order := by
  have ends : (machine.run init piledUp).any (fun threads =>
      threads.thread = some .acquire ∧ threads.owner = none ∧
        threads.running = true ∧
        threads.queue.map Queued.request = [requestFrom 1000 .normal,
          requestFrom 1001 .normal, requestFrom 1002 .high]) := by
    decide +kernel
  obtain ⟨threads, ran, waits, unlocked, running, queued⟩ : ∃ threads,
      machine.run init piledUp = some threads ∧
        threads.thread = some .acquire ∧ threads.owner = none ∧
        threads.running = true ∧
        threads.queue.map Queued.request = [requestFrom 1000 .normal,
          requestFrom 1001 .normal, requestFrom 1002 .high] := by
    simpa only [Option.any_eq_true, decide_eq_true_eq] using ends
  refine ⟨threads, ran, fun order member => ?_⟩
  have sorted : ∃ left,
      (threads.queue.map Queued.request).Perm (order ++ left) ∧
        order.Pairwise ExecutionRequest.Precedes ∧
        ∀ first ∈ order, ∀ second ∈ left, first.Precedes second := by
    rw [queued]
    rcases List.mem_pair.mp member with rfl | rfl
    · exact ⟨[], by decide +kernel, by decide +kernel, by simp⟩
    · exact ⟨[], by decide +kernel, by decide +kernel, by simp⟩
  obtain ⟨statements, final, continued, _, taken⟩ :=
    (backlog_orders ran ⟨.inl waits, unlocked, running⟩ order).mpr sorted
  exact ⟨statements, final, continued, taken⟩

end Threads

end TradingBot
