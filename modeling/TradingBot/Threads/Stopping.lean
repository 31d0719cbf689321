import TradingBot.Threads.Locked

namespace TradingBot

open Library

/-! How long `stop` can take. -/

/-- How many statements the loop has left once `running` is false. -/
def LoopPoint.remaining (queue : List Queued) : LoopPoint → Nat
  | .block => 11
  | .blocked => 10
  | .acquire | .reacquire => 9
  | .predQueue => 8
  | .predRunning => 4
  | .exitRunning => if queue = [] then 3 else 7
  | .exitQueue => if queue = [] then 2 else 6
  | .continueTest => 5
  | .take => 4
  | .leave (.run _) => 3
  | .execute _ | .leave .again => 2
  | .leave .exit | .whileTest => 1
  | .returned => 0

def SubmitPoint.remaining : SubmitPoint → Nat
  | .acquire => 4
  | .push => 3
  | .release => 2
  | .notify => 1
  | .returned => 0

def ControlPoint.remaining : ControlPoint → Nat
  | .storeRunning => 3
  | .notifyAll => 2
  | .join | .spawn => 1
  | .ready => 0

namespace ThreadAction

/-- A statement of `executionLoop`, a wake-up on its own included. -/
def ofLoop : ThreadAction → Nat
  | .advanceLoop | .takeRequest _ | .wakeSpuriously => 1
  | _ => 0

def takes : ThreadAction → Nat
  | .takeRequest _ => 1
  | _ => 0

/-- The statements of a call, its beginning included. -/
def statements : ThreadAction → Nat
  | .submitOrder _ => 5
  | .stop => 4
  | _ => 0

end ThreadAction

namespace Threads

def loopRemaining (threads : Threads) : Nat :=
  threads.thread.elim 0 (LoopPoint.remaining threads.queue)

def remaining (threads : Threads) : Nat :=
  threads.loopRemaining + threads.control.remaining +
    (threads.calls.map fun call => call.point.remaining).sum

/-- The loop has still to get past `top()`. -/
def mayTake (threads : Threads) : Nat :=
  if 4 ≤ threads.loopRemaining then 1 else 0

/-- No thread can go on with what it has begun, unless the loop wakes up by
itself. -/
def Halted (threads : Threads) : Prop :=
  (∀ ticket, threads.advance ticket = none) ∧
    threads.advanceControl = none ∧ threads.advanceLoop = none ∧
    ∀ entry, threads.takeRequest entry = none

/-- The loop is to return. -/
structure Stopped (threads : Threads) : Prop extends Locked threads where
  stopped : threads.running = false

variable {threads next : Threads}

theorem remaining_of_unlocked {point : LoopPoint} (free : point.holdsLock = false)
    (first second : List Queued) :
    point.remaining first = point.remaining second := by
  cases point <;> first | rfl | cases free

theorem remaining_wake (thread : Option LoopPoint) (queue : List Queued) :
    (wake thread).elim 0 (LoopPoint.remaining queue) ≤
      thread.elim 0 (LoopPoint.remaining queue) := by
  cases thread with
  | none => rfl
  | some point => cases point <;> simp [wake, LoopPoint.remaining]

/-- Once `running` is false every statement takes the loop nearer its end. -/
theorem remaining_of_next {queue : List Queued} {point after : LoopPoint}
    (moved : point.next false queue = some after)
    (empty : point = .predRunning → queue = []) :
    after.remaining queue + 1 ≤ point.remaining queue := by
  cases point with
  | leave leave => cases leave <;> cases moved <;> simp [LoopPoint.remaining]
  | predRunning =>
      obtain rfl := empty rfl
      cases moved
      simp [LoopPoint.remaining]
  | _ =>
      simp only [LoopPoint.next] at moved
      grind [LoopPoint.remaining]

theorem Stopped.step {action : ThreadAction} (stopped : threads.Stopped)
    (kept : action ≠ .start) (stepped : threads.step action = some next) :
    next.Stopped := by
  refine ⟨stopped.toLocked.step stepped, ?_⟩
  have still := stopped.stopped
  cases action with
  | submitOrder request =>
      cases stepped
      exact still
  | advance ticket =>
      obtain ⟨_, _, ⟨_, _, rfl⟩ | ⟨_, rfl⟩ | ⟨_, rfl⟩ | ⟨_, rfl⟩⟩ :=
        advance_eq_some stepped <;> exact still
  | start => exact absurd rfl kept
  | stop =>
      obtain ⟨_, rfl⟩ := stop_eq_some.mp stepped
      exact still
  | advanceControl =>
      obtain ⟨_, rfl⟩ | ⟨_, rfl⟩ | ⟨_, rfl⟩ | ⟨_, _, rfl⟩ :=
        advanceControl_eq_some stepped
      · exact still
      · rfl
      · exact still
      · exact still
  | advanceLoop =>
      obtain ⟨_, _, _, _, _, rfl⟩ := advanceLoop_moves stepped
      exact still
  | takeRequest entry =>
      obtain ⟨_, rfl⟩ := takeRequest_eq_some.mp stepped
      exact still
  | wakeSpuriously =>
      obtain ⟨_, rfl⟩ := wakeSpuriously_eq_some.mp stepped
      exact still

theorem sum_setPoint {ticket : Nat} {call : SubmitCall}
    (found : threads.calls[ticket]? = some call) (point : SubmitPoint) :
    ((threads.setPoint ticket call point).map
        fun call => call.point.remaining).sum + call.point.remaining =
      (threads.calls.map fun call => call.point.remaining).sum +
        point.remaining := by
  obtain ⟨within, rfl⟩ := List.getElem?_eq_some_iff.mp found
  have same : (threads.calls.map fun call => call.point.remaining).sum =
      ((threads.calls.map fun call => call.point.remaining).set ticket
        threads.calls[ticket].point.remaining).sum := by
    rw [← List.map_set, List.set_getElem_self]
  rw [same, setPoint, List.map_set]
  simp only [List.sum_set, List.length_map, if_pos within]
  omega

theorem remaining_advance {ticket : Nat} (orderly : threads.Orderly)
    (stepped : threads.advance ticket = some next) :
    next.loopRemaining ≤ threads.loopRemaining ∧
      next.remaining + 1 ≤ threads.remaining := by
  obtain ⟨call, found, outcome⟩ := advance_eq_some stepped
  have sum := sum_setPoint found
  rcases outcome with ⟨point, _, rfl⟩ | ⟨point, rfl⟩ | ⟨point, rfl⟩ | ⟨point, rfl⟩
  · have moved := sum .push
    simp only [remaining, loopRemaining, point, SubmitPoint.remaining] at moved ⊢
    omega
  · have owns := orderly.callerOwns ticket ((callAt_own found).mpr (by
      simp [point, SubmitPoint.holdsLock]))
    have same : loopRemaining { threads with
        queue := threads.queue ++ [{ ticket, request := call.request }] } =
          threads.loopRemaining := by
      unfold loopRemaining
      cases thread : threads.thread with
      | none => rfl
      | some loop =>
          -- the caller has the lock, so what the loop has left does not
          -- depend on the queue
          refine remaining_of_unlocked (Bool.eq_false_iff.mpr fun locked => ?_) ..
          rw [orderly.loopOwns loop thread locked] at owns
          cases owns
    have moved := sum .release
    simp only [remaining, loopRemaining, point, SubmitPoint.remaining]
      at moved same ⊢
    omega
  · have moved := sum .notify
    simp only [remaining, loopRemaining, point, SubmitPoint.remaining] at moved ⊢
    omega
  · have moved := sum .returned
    have woken := remaining_wake threads.thread threads.queue
    simp only [remaining, loopRemaining, point, SubmitPoint.remaining] at moved ⊢
    omega

theorem remaining_advanceControl (stopped : threads.Stopped)
    (stepped : threads.advanceControl = some next) :
    next.loopRemaining ≤ threads.loopRemaining ∧
      next.remaining + 1 ≤ threads.remaining := by
  obtain ⟨here, rfl⟩ | ⟨here, rfl⟩ | ⟨here, rfl⟩ | ⟨here, _, rfl⟩ :=
    advanceControl_eq_some stepped
  · have running := (stopped.spawning here).2
    rw [stopped.stopped] at running
    cases running
  · simp only [remaining, loopRemaining, here, ControlPoint.remaining]
    omega
  · have woken := remaining_wake threads.thread threads.queue
    simp only [remaining, loopRemaining, here, ControlPoint.remaining]
    omega
  · simp only [remaining, loopRemaining, here, ControlPoint.remaining,
      Option.elim_none]
    omega

theorem remaining_advanceLoop (stopped : threads.Stopped)
    (stepped : threads.advanceLoop = some next) :
    next.loopRemaining + 1 ≤ threads.loopRemaining ∧
      next.remaining + 1 ≤ threads.remaining := by
  obtain ⟨point, after, owner, thread, moved, rfl⟩ := advanceLoop_moves stepped
  rw [stopped.stopped] at moved
  have lower := remaining_of_next moved fun testing =>
    stopped.empty (.inl (testing ▸ thread))
  simp only [remaining, loopRemaining, thread, Option.elim_some]
  omega

theorem remaining_takeRequest {entry : Queued}
    (stepped : threads.takeRequest entry = some next) :
    threads.loopRemaining = 4 ∧ next.loopRemaining = 3 ∧
      next.remaining + 1 = threads.remaining := by
  obtain ⟨⟨here, _⟩, rfl⟩ := takeRequest_eq_some.mp stepped
  have before : threads.loopRemaining = 4 := by
    rw [loopRemaining, here]
    rfl
  refine ⟨before, rfl, ?_⟩
  rw [remaining, remaining, before]
  change 3 + threads.control.remaining +
    (threads.calls.map fun call => call.point.remaining).sum + 1 = _
  omega

theorem remaining_wakeSpuriously
    (stepped : threads.wakeSpuriously = some next) :
    next.loopRemaining + 1 = threads.loopRemaining ∧
      next.remaining + 1 = threads.remaining := by
  obtain ⟨here, rfl⟩ := wakeSpuriously_eq_some.mp stepped
  have before : threads.loopRemaining = 10 := by
    rw [loopRemaining, here]
    rfl
  refine ⟨before.symm, ?_⟩
  rw [remaining, remaining, before]
  change 9 + threads.control.remaining +
    (threads.calls.map fun call => call.point.remaining).sum + 1 = _
  omega

/-- Every statement is paid for. -/
theorem remaining_step {action : ThreadAction} (stopped : threads.Stopped)
    (kept : action ≠ .start) (stepped : threads.step action = some next) :
    next.loopRemaining + action.ofLoop ≤ threads.loopRemaining ∧
      next.remaining + 1 ≤ threads.remaining + action.statements ∧
      (action.takes = 0 ∨
        threads.loopRemaining = 4 ∧ next.loopRemaining = 3 ∧
          action.takes = 1) := by
  cases action with
  | submitOrder request =>
      cases stepped
      simp [remaining, loopRemaining, submitOrder, ThreadAction.ofLoop,
        ThreadAction.takes, ThreadAction.statements, SubmitPoint.remaining]
      omega
  | advance ticket =>
      have spent := remaining_advance stopped.toOrderly stepped
      exact ⟨spent.1, spent.2, .inl rfl⟩
  | start => exact absurd rfl kept
  | stop =>
      obtain ⟨ready, rfl⟩ := stop_eq_some.mp stepped
      simp [remaining, loopRemaining, ready, ThreadAction.ofLoop,
        ThreadAction.takes, ThreadAction.statements, ControlPoint.remaining]
      omega
  | advanceControl =>
      have spent := remaining_advanceControl stopped stepped
      exact ⟨spent.1, spent.2, .inl rfl⟩
  | advanceLoop =>
      have spent := remaining_advanceLoop stopped stepped
      exact ⟨spent.1, spent.2, .inl rfl⟩
  | takeRequest entry =>
      obtain ⟨before, after, spent⟩ := remaining_takeRequest stepped
      exact ⟨by rw [before, after]; rfl, spent.le,
        .inr ⟨before, after, rfl⟩⟩
  | wakeSpuriously =>
      have spent := remaining_wakeSpuriously stepped
      exact ⟨spent.1.le, spent.2.le, .inl rfl⟩

/-- With a request queued some request can be taken. -/
theorem exists_takeRequest (here : threads.thread = some .take)
    (nonempty : threads.queue ≠ []) :
    ∃ entry, (threads.takeRequest entry).isSome := by
  have waiting : threads.queue.map Queued.request ≠ [] := by
    simpa using nonempty
  obtain ⟨request, top⟩ := exists_isTop waiting
  obtain ⟨entry, member, rfl⟩ := List.mem_map.mp top.1
  exact ⟨entry, by simp [takeRequest, here, member, top]⟩

theorem next_eq_none {running : Bool} {queue : List Queued} {point : LoopPoint}
    (stuck : point.next running queue = none) :
    point = .blocked ∨ point = .returned ∨ point = .take := by
  cases point with
  | leave leave => cases leave <;> cases stuck
  | _ => grind [LoopPoint.next]

/-- Only a lock, a wake-up or the choice of a request can keep the loop from its
next statement. -/
theorem advanceLoop_eq_none {point : LoopPoint}
    (here : threads.thread = some point)
    (stuck : threads.advanceLoop = none) :
    point = .blocked ∨ point = .returned ∨ point = .take ∨
      point.holdsLock = false ∧ threads.owner ≠ none := by
  unfold advanceLoop at stuck
  rw [here] at stuck
  cases moved : point.next threads.running threads.queue with
  | none => exact (next_eq_none moved).imp_right (·.imp_right .inl)
  | some after =>
      simp only [moved] at stuck
      split at stuck
      next free _ => exact .inr (.inr (.inr ⟨free, by simpa using stuck⟩))
      next => cases stuck
      next => cases stuck

/-- The lock is never kept by a thread that cannot go on. -/
theorem Halted.unlocked (halted : threads.Halted) (locked : threads.Locked) :
    threads.owner = none := by
  obtain ⟨calls, _, loop, takes⟩ := halted
  cases owner : threads.owner with
  | none => rfl
  | some holder =>
      cases holder with
      | loop =>
          obtain ⟨point, here, holds⟩ := locked.loopHolds owner
          rcases advanceLoop_eq_none here loop with rfl | rfl | rfl | free
          · cases holds
          · cases holds
          · obtain ⟨entry, enabled⟩ :=
              exists_takeRequest here (locked.nonempty (.inr here))
            simp [takes entry] at enabled
          · rw [free.1] at holds
            cases holds
      | caller ticket =>
          obtain ⟨call, found, holds⟩ := locked.callerHolds ticket owner
          have stuck := calls ticket
          cases point : call.point with
          | push | release => simp [advance, found, point] at stuck
          | _ => simp [point, SubmitPoint.holdsLock] at holds

/-- A halted engine whose `running` is false: every call of `submitOrder` has
returned, and so has `stop`, unless it joins a loop that nobody will wake. -/
theorem Stopped.halted_iff (stopped : threads.Stopped) :
    threads.Halted ↔
      (∀ call ∈ threads.calls, call.point = .returned) ∧
        (threads.control = .ready ∧ threads.thread = none ∨
          threads.control = .join ∧ threads.thread = some .blocked) := by
  constructor
  · intro halted
    have unlocked := halted.unlocked stopped.toLocked
    obtain ⟨calls, control, loop, takes⟩ := halted
    constructor
    · intro call member
      obtain ⟨ticket, found⟩ := List.mem_iff_getElem?.mp member
      have stuck := calls ticket
      cases point : call.point with
      | returned => rfl
      | _ => simp [advance, found, point, unlocked] at stuck
    · have resting : ∀ point, threads.thread = some point →
          point = .blocked ∨ point = .returned := by
        intro point here
        rcases advanceLoop_eq_none here loop with rfl | rfl | rfl | free
        · exact .inl rfl
        · exact .inr rfl
        · obtain ⟨entry, enabled⟩ :=
            exists_takeRequest here (stopped.nonempty (.inr here))
          simp [takes entry] at enabled
        · exact absurd unlocked free.2
      cases here : threads.control with
      | ready =>
          refine .inl ⟨rfl, by_contra fun alive => ?_⟩
          have stopping := stopped.stopping alive stopped.stopped
          rw [here] at stopping
          cases stopping
      | join =>
          refine .inr ⟨rfl, ?_⟩
          cases thread : threads.thread with
          | none => simp [advanceControl, here, thread] at control
          | some point =>
              rcases resting point thread with rfl | rfl
              · rfl
              · simp [advanceControl, here, thread] at control
      | _ => simp [advanceControl, here] at control
  · rintro ⟨returned, rest⟩
    have calls : ∀ ticket, threads.advance ticket = none := by
      intro ticket
      cases found : threads.calls[ticket]? with
      | none => simp [advance, found]
      | some call =>
          have point := returned call (List.mem_of_getElem? found)
          simp [advance, found, point]
    rcases rest with ⟨control, thread⟩ | ⟨control, thread⟩
    · exact ⟨calls, by simp [advanceControl, control],
        by simp [advanceLoop, thread], by simp [takeRequest, thread]⟩
    · exact ⟨calls, by simp [advanceControl, control, thread],
        by simp [advanceLoop, thread, LoopPoint.next],
        by simp [takeRequest, thread]⟩

theorem mayTake_step {action : ThreadAction} (stopped : threads.Stopped)
    (kept : action ≠ .start) (stepped : threads.step action = some next) :
    next.mayTake + action.takes ≤ threads.mayTake := by
  have spent := remaining_step stopped kept stepped
  unfold mayTake
  split <;> split <;> omega

theorem loopRemaining_le (threads : Threads) : threads.loopRemaining ≤ 11 := by
  unfold loopRemaining
  cases threads.thread with
  | none => simp
  | some point =>
      cases point with
      | leave leave => cases leave <;> simp [LoopPoint.remaining]
      | exitRunning | exitQueue =>
          simp only [Option.elim_some, LoopPoint.remaining]
          split <;> omega
      | _ => simp [LoopPoint.remaining]

theorem sum_remaining_le (calls : List SubmitCall) :
    (calls.map fun call => call.point.remaining).sum ≤
      4 * calls.countP fun call => call.point ≠ .returned := by
  induction calls with
  | nil => simp
  | cons call rest induction =>
      have head : call.point.remaining ≤
          4 * if decide (call.point ≠ .returned) = true then 1 else 0 := by
        cases call.point <;> simp [SubmitPoint.remaining]
      rw [List.map_cons, List.sum_cons, List.countP_cons, Nat.mul_add,
        Nat.add_comm]
      exact Nat.add_le_add induction head

theorem remaining_le (threads : Threads) :
    threads.remaining ≤
      14 + 4 * threads.calls.countP fun call => call.point ≠ .returned := by
  have loop := threads.loopRemaining_le
  have calls := sum_remaining_le threads.calls
  have control : threads.control.remaining ≤ 3 := by
    cases threads.control <;> simp [ControlPoint.remaining]
  unfold remaining
  omega

section Bounds

variable {actions : List ThreadAction} (stopped : threads.Stopped)
  (ran : machine.run threads actions = some next) (kept : .start ∉ actions)

include stopped ran kept

theorem Stopped.pays {potential : Threads → Nat}
    {cost allowance : ThreadAction → Nat}
    (paid : ∀ state action after, state.Stopped → action ≠ .start →
      state.step action = some after →
      potential after + cost action ≤ potential state + allowance action) :
    (actions.map cost).sum + potential next ≤
      potential threads + (actions.map allowance).sum :=
  Machine.cost_le_of_potential Stopped (· ≠ .start) stopped
    (fun _ member same => kept (same ▸ member))
    (fun _ _ _ earlier other stepped => earlier.step other stepped) paid ran

theorem Stopped.ofLoop_le : (actions.map ThreadAction.ofLoop).sum ≤ 11 := by
  have paid : (actions.map ThreadAction.ofLoop).sum + next.loopRemaining ≤
      threads.loopRemaining + (actions.map fun _ => 0).sum :=
    stopped.pays ran kept fun _ _ _ earlier other stepped =>
      (remaining_step earlier other stepped).1
  have free : (actions.map fun _ => 0).sum = 0 := by simp
  have most := threads.loopRemaining_le
  omega

theorem Stopped.takes_le : (actions.map ThreadAction.takes).sum ≤ 1 := by
  have paid : (actions.map ThreadAction.takes).sum + next.mayTake ≤
      threads.mayTake + (actions.map fun _ => 0).sum :=
    stopped.pays ran kept fun _ _ _ earlier other stepped =>
      mayTake_step earlier other stepped
  have free : (actions.map fun _ => 0).sum = 0 := by simp
  have most : threads.mayTake ≤ 1 := by
    unfold mayTake
    split <;> omega
  omega

theorem Stopped.length_le :
    actions.length ≤
      14 + 4 * (threads.calls.countP fun call => call.point ≠ .returned) +
        (actions.map ThreadAction.statements).sum := by
  have paid : (actions.map fun _ => 1).sum + next.remaining ≤
      threads.remaining + (actions.map ThreadAction.statements).sum :=
    stopped.pays ran kept fun _ _ _ earlier other stepped =>
      (remaining_step earlier other stepped).2.1
  have most := threads.remaining_le
  have each : (actions.map fun _ => 1).sum = actions.length := by simp
  omega

theorem Stopped.last : next.Stopped := by
  have other : machine.Along (fun _ action => action ≠ .start) threads
      actions := by
    apply Machine.along_of_forall
    rintro action member _ rfl
    exact kept member
  exact Machine.run_preserves Stopped stopped other ran
    fun _ _ _ earlier other stepped => earlier.step other stepped

end Bounds

/-- After `running` is false the loop executes at most eleven more statements
and takes at most one more request, and `stop` returns unless it finds the loop
blocked for good. -/
theorem stop_ends {actions rest : List ThreadAction}
    (ran : machine.run init actions = some threads)
    (stopped : threads.running = false)
    (continued : machine.run threads rest = some next)
    (kept : .start ∉ rest) :
    (rest.map ThreadAction.ofLoop).sum ≤ 11 ∧
      (rest.map ThreadAction.takes).sum ≤ 1 ∧
      rest.length ≤
        14 + 4 * (threads.calls.countP fun call => call.point ≠ .returned) +
          (rest.map ThreadAction.statements).sum ∧
      (next.Halted ↔
        (∀ call ∈ next.calls, call.point = .returned) ∧
          (next.control = .ready ∧ next.thread = none ∨
            next.control = .join ∧ next.thread = some .blocked)) := by
  have locked := Machine.reachable_preserves Locked locked_init ⟨actions, ran⟩
    (fun _ _ _ locked => locked.step)
  have start : threads.Stopped := ⟨locked, stopped⟩
  have last := start.last continued kept
  exact ⟨start.ofLoop_le continued kept, start.takes_le continued kept,
    start.length_le continued kept, last.halted_iff⟩

private def lastRequest : ExecutionRequest :=
  { orderId := 1000, symbol := "AAPL", side := .sell, price := 100,
    quantity := 100, priority := .low, timestamp := default }

/-- `running` is cleared between the loop's test of the predicate and its
block. -/
private def clearedInWindow : List ThreadAction :=
  [.start, .advanceControl, .advanceLoop, .advanceLoop, .advanceLoop,
    .advanceLoop, .submitOrder lastRequest, .stop, .advanceControl]

/-- The loop blocks, wakes up by itself, and finds a request. -/
private def executedLast : List ThreadAction :=
  [.advanceLoop, .advance 0, .advance 0, .advance 0, .wakeSpuriously,
    .advanceLoop, .advanceLoop, .advanceLoop, .advanceLoop, .advanceLoop,
    .takeRequest ⟨0, lastRequest⟩, .advanceLoop, .advanceLoop, .advanceLoop,
    .advance 0, .advanceControl, .advanceControl]

theorem stop_ends_late :
    ∃ threads next, machine.run init clearedInWindow = some threads ∧
      machine.run threads executedLast = some next ∧
      (executedLast.map ThreadAction.ofLoop).sum = 11 ∧
      (executedLast.map ThreadAction.takes).sum = 1 ∧ next.Halted := by
  refine ⟨_, _, rfl, rfl, rfl, rfl, ?_⟩
  apply (stop_ends (show machine.run init clearedInWindow = some _ from rfl)
    rfl (show machine.run _ executedLast = some _ from rfl)
    (by decide)).2.2.2.mpr
  exact ⟨by decide, .inl ⟨rfl, rfl⟩⟩

end Threads

end TradingBot
