import TradingBot.Threads.Orderly
import TradingBot.Library.Dispatcher

namespace TradingBot

open Library

/-! The execution loop as a dispatcher of the submitted requests. -/

/-- `HIGH` before `NORMAL` before `LOW`. -/
def Queued.MoreUrgent (entry other : Queued) : Prop :=
  entry.request.priority.toInt < other.request.priority.toInt

instance (entry other : Queued) : Decidable (entry.MoreUrgent other) :=
  inferInstanceAs (Decidable (_ < _))

namespace LoopPoint

/-- The loop's own copy of a request, between `pop` and the end of
`executeOrder`. -/
def inFlight? : LoopPoint → Option Queued
  | .leave (.run entry) => some entry
  | .execute entry => some entry
  | _ => none

/-- The handling a step of the loop shows. -/
def handled : LoopPoint → List (Handling Queued)
  | .execute entry => [.executed entry]
  | _ => []

/-- Only the execution of a request ends its flight. -/
theorem inFlight?_of_next {running : Bool} {queue : List Queued}
    {point after : LoopPoint} (moved : point.next running queue = some after) :
    (∃ entry, point = .execute entry ∧ after.inFlight? = none) ∨
      point.handled = [] ∧ after.inFlight? = point.inFlight? := by
  cases point with
  | execute entry =>
      cases moved
      exact .inl ⟨entry, rfl, rfl⟩
  | leave leave => cases leave <;> cases moved <;> exact .inr ⟨rfl, rfl⟩
  | _ =>
      refine .inr ⟨rfl, ?_⟩
      simp only [next] at moved
      grind [inFlight?]

end LoopPoint

namespace Threads

def dispatcher (threads : Threads) : Dispatcher Queued where
  waiting := threads.queue
  serving := threads.thread.bind LoopPoint.inFlight?

/-- What a step does with a request. -/
def observe (threads : Threads) : ThreadAction → List (Handling Queued)
  | .advance ticket =>
      match threads.calls[ticket]? with
      | none => []
      | some call =>
          if call.point = .push then
            [.pushed { ticket, request := call.request }]
          else []
  | .takeRequest entry => [.taken entry]
  | .advanceLoop =>
      threads.thread.elim [] LoopPoint.handled
  | _ => []

theorem bind_wake (thread : Option LoopPoint) :
    (wake thread).bind LoopPoint.inFlight? =
      thread.bind LoopPoint.inFlight? := by
  cases thread with
  | none => rfl
  | some point => cases point <;> rfl

theorem serves_advance {threads next : Threads} {ticket : Nat}
    (stepped : threads.advance ticket = some next) :
    Dispatcher.Serves Queued.MoreUrgent threads.dispatcher
      (threads.observe (.advance ticket)) next.dispatcher := by
  obtain ⟨call, found, ⟨point, _, rfl⟩ | ⟨point, rfl⟩ | ⟨point, rfl⟩ |
    ⟨point, rfl⟩⟩ := advance_eq_some stepped
  · simp only [observe, found, point, reduceCtorEq, if_false]
    exact .idle _
  · simp only [observe, found, point, if_true]
    exact .push _
  · simp only [observe, found, point, reduceCtorEq, if_false]
    exact .idle _
  · simp only [observe, found, point, reduceCtorEq, if_false, dispatcher,
      bind_wake]
    exact .idle _

theorem serves_advanceControl {threads next : Threads}
    (orderly : threads.Orderly)
    (stepped : threads.advanceControl = some next) :
    Dispatcher.Serves Queued.MoreUrgent threads.dispatcher [] next.dispatcher := by
  have same : next.dispatcher = threads.dispatcher := by
    obtain ⟨control, rfl⟩ | ⟨_, rfl⟩ | ⟨_, rfl⟩ | ⟨_, joined, rfl⟩ :=
      advanceControl_eq_some stepped
    · simp [dispatcher, (orderly.spawning control).1, LoopPoint.inFlight?]
    · rfl
    · simp [dispatcher, bind_wake]
    · rcases joined with gone | returned
      · simp [dispatcher, gone]
      · simp [dispatcher, returned, LoopPoint.inFlight?]
  rw [same]
  exact .idle _

theorem serves_advanceLoop {threads next : Threads}
    (stepped : threads.advanceLoop = some next) :
    Dispatcher.Serves Queued.MoreUrgent threads.dispatcher
      (threads.observe .advanceLoop) next.dispatcher := by
  obtain ⟨point, after, owner, thread, moved, rfl⟩ := advanceLoop_moves stepped
  simp only [observe, dispatcher, thread, Option.elim_some, Option.bind_some]
  rcases LoopPoint.inFlight?_of_next moved with ⟨entry, rfl, ended⟩ |
    ⟨silent, kept⟩
  · rw [ended]
    exact .execute entry
  · rw [silent, kept]
    exact .idle _

theorem not_moreUrgent_of_isTop {queue : List Queued} {entry other : Queued}
    (top : IsTop (queue.map Queued.request) entry.request)
    (waits : other ∈ queue) : ¬ other.MoreUrgent entry := by
  have notAfter := top.2 other.request (List.mem_map_of_mem waits)
  simpa [ExecutionRequest.after, Queued.MoreUrgent] using notAfter

/-- Every step of the threads is a step of the dispatcher. -/
theorem serves_step {threads next : Threads} {action : ThreadAction}
    (orderly : threads.Orderly) (stepped : threads.step action = some next) :
    Dispatcher.Serves Queued.MoreUrgent threads.dispatcher
      (threads.observe action) next.dispatcher := by
  cases action with
  | submitOrder request =>
      cases stepped
      exact .idle _
  | advance ticket => exact serves_advance stepped
  | start =>
      obtain ⟨_, rfl⟩ := start_eq_some.mp stepped
      exact .idle _
  | stop =>
      obtain ⟨_, rfl⟩ := stop_eq_some.mp stepped
      exact .idle _
  | advanceControl => exact serves_advanceControl orderly stepped
  | advanceLoop => exact serves_advanceLoop stepped
  | takeRequest entry =>
      obtain ⟨⟨thread, member, top⟩, rfl⟩ := takeRequest_eq_some.mp stepped
      simp only [observe, dispatcher, thread]
      exact .take member fun other waits => not_moreUrgent_of_isTop top waits
  | wakeSpuriously =>
      obtain ⟨thread, rfl⟩ := wakeSpuriously_eq_some.mp stepped
      simp only [observe, dispatcher, thread]
      exact .idle _

theorem pushed_persists {threads next : Threads} {action : ThreadAction}
    (stepped : threads.step action = some next) {ticket : Nat}
    (pushed : CallAt threads.calls ticket (·.Pushed)) :
    CallAt next.calls ticket (·.Pushed) := by
  cases action with
  | submitOrder request =>
      cases stepped
      exact callAt_submitOrder.mpr (.inl pushed)
  | advance own =>
      obtain ⟨call, found, moved⟩ := advance_eq_some stepped
      have forward : ∀ after : SubmitPoint, (call.point.Pushed → after.Pushed) →
          CallAt (threads.setPoint own call after) ticket (·.Pushed) := by
        intro after keeps
        rw [callAt_setPoint found]
        split
        next same =>
            rw [same, callAt_own found] at pushed
            exact keeps pushed
        next => exact pushed
      rcases moved with ⟨point, _, rfl⟩ | ⟨_, rfl⟩ | ⟨_, rfl⟩ | ⟨_, rfl⟩
      · exact forward .push (by simp [point, SubmitPoint.Pushed])
      · exact forward .release fun _ => trivial
      · exact forward .notify fun _ => trivial
      · exact forward .returned fun _ => trivial
  | start =>
      obtain ⟨_, rfl⟩ := start_eq_some.mp stepped
      exact pushed
  | stop =>
      obtain ⟨_, rfl⟩ := stop_eq_some.mp stepped
      exact pushed
  | advanceControl =>
      obtain ⟨_, rfl⟩ | ⟨_, rfl⟩ | ⟨_, rfl⟩ | ⟨_, _, rfl⟩ :=
        advanceControl_eq_some stepped
      all_goals exact pushed
  | advanceLoop =>
      obtain ⟨_, _, _, _, _, rfl⟩ := advanceLoop_moves stepped
      exact pushed
  | takeRequest entry =>
      obtain ⟨_, rfl⟩ := takeRequest_eq_some.mp stepped
      exact pushed
  | wakeSpuriously =>
      obtain ⟨_, rfl⟩ := wakeSpuriously_eq_some.mp stepped
      exact pushed

/-- A step pushes at most one request, whose call is at `push` before and past
it after. -/
theorem pushedIn_observe {threads next : Threads} {action : ThreadAction}
    (stepped : threads.step action = some next) :
    pushedIn (threads.observe action) = [] ∨
      ∃ entry, pushedIn (threads.observe action) = [entry] ∧
        ¬ CallAt threads.calls entry.ticket (·.Pushed) ∧
        CallAt next.calls entry.ticket (·.Pushed) := by
  cases action with
  | advance ticket =>
      obtain ⟨call, found, ⟨point, _, rfl⟩ | ⟨point, rfl⟩ | ⟨point, rfl⟩ |
        ⟨point, rfl⟩⟩ := advance_eq_some stepped
      · left
        simp [observe, found, point, pushedIn]
      · right
        refine ⟨{ ticket, request := call.request }, ?_, ?_, ?_⟩
        · simp [observe, found, point, pushedIn, Handling.pushed?]
        · rw [callAt_own found, point]
          exact id
        · rw [callAt_setPoint found, if_pos rfl]
          trivial
      · left
        simp [observe, found, point, pushedIn]
      · left
        simp [observe, found, point, pushedIn]
  | advanceLoop =>
      left
      cases thread : threads.thread with
      | none => simp [observe, thread, pushedIn]
      | some point =>
          cases point <;>
            simp [observe, thread, pushedIn, LoopPoint.handled,
              Handling.pushed?]
  | takeRequest entry => exact .inl rfl
  | _ => exact .inl rfl

/-- The log of a run accounts for the requests, each under a ticket of its
own. -/
structure Dispatching (threads : Threads) (log : List (Handling Queued)) :
    Prop where
  orderly : threads.Orderly
  accounted : Dispatcher.Accounted Queued.MoreUrgent threads.dispatcher log
  issued : ∀ entry ∈ pushedIn log, CallAt threads.calls entry.ticket (·.Pushed)
  distinct : ((pushedIn log).map Queued.ticket).Nodup

theorem dispatching_init : init.Dispatching [] where
  orderly := orderly_init
  accounted := Dispatcher.accounted_idle
  issued := by simp [pushedIn]
  distinct := List.nodup_nil

theorem Dispatching.step {threads next : Threads}
    {log : List (Handling Queued)} {action : ThreadAction}
    (dispatching : threads.Dispatching log)
    (stepped : threads.step action = some next) :
    next.Dispatching (log ++ threads.observe action) where
  orderly := dispatching.orderly.step stepped
  accounted :=
    dispatching.accounted.serves (serves_step dispatching.orderly stepped)
  issued := by
    intro entry member
    rw [pushedIn_append] at member
    rcases List.mem_append.mp member with earlier | last
    · exact pushed_persists stepped (dispatching.issued entry earlier)
    · rcases pushedIn_observe stepped with none | ⟨pushed, one, _, after⟩
      · rw [none] at last
        cases last
      · rw [one] at last
        rw [List.mem_singleton.mp last]
        exact after
  distinct := by
    rw [pushedIn_append, List.map_append]
    rcases pushedIn_observe stepped with none | ⟨pushed, one, before, _⟩
    · rw [none, List.map_nil, List.append_nil]
      exact dispatching.distinct
    · rw [one, List.map_singleton, List.nodup_append]
      refine ⟨dispatching.distinct, List.nodup_singleton _, ?_⟩
      intro ticket earlier last final same
      obtain ⟨entry, member, rfl⟩ := List.mem_map.mp earlier
      rw [List.mem_singleton.mp final] at same
      exact before (same ▸ dispatching.issued entry member)

theorem dispatching_of_run {actions : List ThreadAction} {final : Threads}
    (ran : machine.run init actions = some final) :
    final.Dispatching (machine.record observe init actions) :=
  Machine.run_record_preserves Dispatching dispatching_init ran
    fun _ _ _ _ dispatching stepped => dispatching.step stepped

/-- In every reachable state the pushed requests, each with its own ticket, are
the queued, the one in flight and the executed ones; the loop takes none that a
queued one outranks; and a request executed before a more urgent one had been
taken before that one was pushed. -/
theorem dispatch_conserves_and_ranks {actions : List ThreadAction}
    {final : Threads} (ran : machine.run init actions = some final) :
    (pushedIn (machine.record observe init actions)).Perm
        (final.queue ++ (final.thread.bind LoopPoint.inFlight?).toList ++
          executedIn (machine.record observe init actions)) ∧
      ((pushedIn (machine.record observe init actions)).map
        Queued.ticket).Nodup ∧
      (∀ entry next, final.step (.takeRequest entry) = some next →
        ∀ other ∈ final.queue, ¬ other.MoreUrgent entry) ∧
      ∀ entry other,
        [Handling.executed entry, Handling.executed other].Sublist
            (machine.record observe init actions) →
          other.MoreUrgent entry →
          [Handling.taken entry, Handling.pushed other].Sublist
            (machine.record observe init actions) := by
  have dispatching := dispatching_of_run ran
  refine ⟨dispatching.accounted.conserved, dispatching.distinct, ?_, ?_⟩
  · intro entry next stepped other waits
    have taken := (takeRequest_eq_some.mp stepped).1
    exact not_moreUrgent_of_isTop taken.2.2 waits
  · intro entry other executed urgent
    exact dispatching.accounted.executed_in_order executed urgent

private def requestOf (priority : ExecutionPriority) : ExecutionRequest :=
  { orderId := 1000, symbol := "AAPL", side := .buy, price := 100,
    quantity := 100, priority, timestamp := default }

private def entryOf (ticket : Nat) (priority : ExecutionPriority) : Queued :=
  { ticket, request := requestOf priority }

/-- A `HIGH` request is pushed while a `NORMAL` one is in flight. -/
private def urgentWhileInFlight : List ThreadAction :=
  [.start, .advanceControl, .submitOrder (requestOf .normal), .advance 0,
      .advance 0, .advance 0, .advance 0] ++
    List.replicate 5 .advanceLoop ++
    [.takeRequest (entryOf 0 .normal), .advanceLoop,
      .submitOrder (requestOf .high), .advance 1, .advance 1, .advance 1] ++
    List.replicate 6 .advanceLoop ++
    [.takeRequest (entryOf 1 .high), .advanceLoop, .advanceLoop]

theorem dispatch_ranks_urgentWhileInFlight :
    ∃ final, machine.run init urgentWhileInFlight = some final ∧
      [Handling.taken (entryOf 0 .normal),
        Handling.pushed (entryOf 1 .high)].Sublist
        (machine.record observe init urgentWhileInFlight) := by
  refine ⟨_, rfl, ?_⟩
  apply (dispatch_conserves_and_ranks
    (show machine.run init urgentWhileInFlight = some _ from rfl)).2.2.2
  · decide
  · decide

end Threads

end TradingBot
