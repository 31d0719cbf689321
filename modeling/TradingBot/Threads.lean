import TradingBot.Library.Machine
import TradingBot.ExecutionEngine

namespace TradingBot

/-! The threads of one `ExecutionEngine`: any number of `submitOrder` calls, one
thread that calls `start` and `stop`, and `executionLoop`.  Every access to
`running`, to the queue and to the condition variable is one step. -/

/-- A queued request, told apart by the `submitOrder` call that pushed it. -/
structure Queued where
  ticket : Nat
  request : ExecutionRequest
  deriving DecidableEq

inductive Leave where
  | again
  | exit
  | run (entry : Queued)
  deriving DecidableEq

/-- The program points of `executionLoop`, each before the step it names. -/
inductive LoopPoint where
  | whileTest
  | acquire
  | predQueue
  | predRunning
  | block
  | blocked
  | reacquire
  | exitRunning
  | exitQueue
  | continueTest
  | take
  | leave (after : Leave)
  | execute (entry : Queued)
  | returned
  deriving DecidableEq

namespace LoopPoint

def holdsLock : LoopPoint → Bool
  | .predQueue | .predRunning | .block | .exitRunning | .exitQueue
  | .continueTest | .take | .leave _ => true
  | _ => false

/-- Where the loop goes on its own; `blocked` waits for a wake-up and `take`
for the choice of a request. -/
def next (running : Bool) (queue : List Queued) : LoopPoint → Option LoopPoint
  | .whileTest => if running then some .acquire else some .returned
  | .acquire => some .predQueue
  | .predQueue => if queue = [] then some .predRunning else some .exitRunning
  | .predRunning => if running then some .block else some .exitRunning
  | .block => some .blocked
  | .blocked => none
  | .reacquire => some .predQueue
  | .exitRunning => if running then some .continueTest else some .exitQueue
  | .exitQueue =>
      if queue = [] then some (.leave .exit) else some .continueTest
  | .continueTest => if queue = [] then some (.leave .again) else some .take
  | .take => none
  | .leave .again => some .whileTest
  | .leave .exit => some .returned
  | .leave (.run entry) => some (.execute entry)
  | .execute _ => some .whileTest
  | .returned => none

end LoopPoint

inductive SubmitPoint where
  | acquire
  | push
  | release
  | notify
  | returned
  deriving DecidableEq

def SubmitPoint.holdsLock : SubmitPoint → Bool
  | .push | .release => true
  | _ => false

structure SubmitCall where
  request : ExecutionRequest
  point : SubmitPoint
  deriving DecidableEq

inductive ControlPoint where
  | ready
  | spawn
  | storeRunning
  | notifyAll
  | join
  deriving DecidableEq

inductive Owner where
  | loop
  | caller (ticket : Nat)
  deriving DecidableEq

/-- `thread` is `none` while `executionThread` is not joinable, and a call's
ticket is its position in `calls`.  `cutoff` is a history variable: the tickets
of the calls that had returned when the last `stop` of a thread began. -/
structure Threads where
  running : Bool
  queue : List Queued
  owner : Option Owner
  thread : Option LoopPoint
  control : ControlPoint
  calls : List SubmitCall
  cutoff : List Nat

inductive ThreadAction where
  | submitOrder (request : ExecutionRequest)
  | advance (ticket : Nat)
  | start
  | stop
  | advanceControl
  | advanceLoop
  | takeRequest (entry : Queued)
  | wakeSpuriously
  deriving DecidableEq

namespace Threads

def submitOrder (threads : Threads) (request : ExecutionRequest) : Threads :=
  { threads with
    calls := threads.calls ++ [{ request, point := .acquire }] }

/-- Both `notify_one` and `notify_all`: only the loop ever waits. -/
def wake : Option LoopPoint → Option LoopPoint
  | some .blocked => some .reacquire
  | thread => thread

def setPoint (threads : Threads) (ticket : Nat) (call : SubmitCall)
    (point : SubmitPoint) : List SubmitCall :=
  threads.calls.set ticket { call with point }

def advance (threads : Threads) (ticket : Nat) : Option Threads :=
  match threads.calls[ticket]? with
  | none => none
  | some call =>
      match call.point with
      | .acquire =>
          if threads.owner = none then
            some { threads with
              calls := threads.setPoint ticket call .push
              owner := some (.caller ticket) }
          else none
      | .push =>
          some { threads with
            calls := threads.setPoint ticket call .release
            queue := threads.queue ++ [{ ticket, request := call.request }] }
      | .release =>
          some { threads with
            calls := threads.setPoint ticket call .notify
            owner := none }
      | .notify =>
          some { threads with
            calls := threads.setPoint ticket call .returned
            thread := wake threads.thread }
      | .returned => none

/-- `running.exchange(true)`. -/
def start (threads : Threads) : Option Threads :=
  if threads.control = .ready then
    some { threads with
      running := true
      control := if threads.running then .ready else .spawn }
  else none

def returnedTickets (threads : Threads) : List Nat :=
  (List.range threads.calls.length).filter fun ticket =>
    (threads.calls[ticket]?).any fun call => call.point = .returned

def stop (threads : Threads) : Option Threads :=
  if threads.control = .ready then
    some { threads with
      control := .storeRunning
      cutoff :=
        if threads.thread = none then threads.cutoff
        else threads.returnedTickets }
  else none

def advanceControl (threads : Threads) : Option Threads :=
  match threads.control with
  | .ready => none
  | .spawn =>
      some { threads with thread := some .whileTest, control := .ready }
  | .storeRunning => some { threads with running := false, control := .notifyAll }
  | .notifyAll =>
      some { threads with thread := wake threads.thread, control := .join }
  | .join =>
      if threads.thread = none ∨ threads.thread = some .returned then
        some { threads with thread := none, control := .ready }
      else none

/-- The next step of `executionLoop`, with the locking and unlocking that comes
with entering or leaving the points that hold the lock. -/
def advanceLoop (threads : Threads) : Option Threads :=
  match threads.thread with
  | none => none
  | some point =>
      match point.next threads.running threads.queue with
      | none => none
      | some after =>
          match point.holdsLock, after.holdsLock with
          | false, true =>
              if threads.owner = none then
                some { threads with owner := some .loop, thread := some after }
              else none
          | true, false =>
              some { threads with owner := none, thread := some after }
          | _, _ => some { threads with thread := some after }

/-- `executionQueue.top()` and `executionQueue.pop()`. -/
def takeRequest (threads : Threads) (entry : Queued) : Option Threads :=
  if threads.thread = some .take ∧ entry ∈ threads.queue ∧
      IsTop (threads.queue.map Queued.request) entry.request then
    some { threads with
      queue := threads.queue.erase entry
      thread := some (.leave (.run entry)) }
  else none

/-- A condition variable may also wake up without a notification. -/
def wakeSpuriously (threads : Threads) : Option Threads :=
  if threads.thread = some .blocked then
    some { threads with thread := some .reacquire }
  else none

def step (threads : Threads) : ThreadAction → Option Threads
  | .submitOrder request => some (threads.submitOrder request)
  | .advance ticket => threads.advance ticket
  | .start => threads.start
  | .stop => threads.stop
  | .advanceControl => threads.advanceControl
  | .advanceLoop => threads.advanceLoop
  | .takeRequest entry => threads.takeRequest entry
  | .wakeSpuriously => threads.wakeSpuriously

def init : Threads where
  running := false
  queue := []
  owner := none
  thread := none
  control := .ready
  calls := []
  cutoff := []

def machine : Library.Machine Threads ThreadAction where
  init := init
  step := step

section Inversion

variable {threads next : Threads}

theorem advance_eq_some {ticket : Nat}
    (stepped : threads.advance ticket = some next) :
    ∃ call, threads.calls[ticket]? = some call ∧
      ((call.point = .acquire ∧ threads.owner = none ∧
          next = { threads with
            calls := threads.setPoint ticket call .push
            owner := some (.caller ticket) }) ∨
        (call.point = .push ∧
          next = { threads with
            calls := threads.setPoint ticket call .release
            queue := threads.queue ++ [{ ticket, request := call.request }] }) ∨
        (call.point = .release ∧
          next = { threads with
            calls := threads.setPoint ticket call .notify
            owner := none }) ∨
        (call.point = .notify ∧
          next = { threads with
            calls := threads.setPoint ticket call .returned
            thread := wake threads.thread })) := by
  unfold advance at stepped
  cases found : threads.calls[ticket]? with
  | none => simp [found] at stepped
  | some call =>
      refine ⟨call, rfl, ?_⟩
      simp only [found] at stepped
      cases point : call.point with
      | acquire =>
          simp only [point, Option.ite_none_right_eq_some,
            Option.some.injEq] at stepped
          exact .inl ⟨rfl, stepped.1, stepped.2.symm⟩
      | push =>
          simp only [point, Option.some.injEq] at stepped
          exact .inr (.inl ⟨rfl, stepped.symm⟩)
      | release =>
          simp only [point, Option.some.injEq] at stepped
          exact .inr (.inr (.inl ⟨rfl, stepped.symm⟩))
      | notify =>
          simp only [point, Option.some.injEq] at stepped
          exact .inr (.inr (.inr ⟨rfl, stepped.symm⟩))
      | returned => simp [point] at stepped

theorem start_eq_some :
    threads.start = some next ↔
      threads.control = .ready ∧
        next = { threads with
          running := true
          control := if threads.running then .ready else .spawn } := by
  rw [start, Option.ite_none_right_eq_some, Option.some_inj,
    eq_comm (a := next)]

theorem stop_eq_some :
    threads.stop = some next ↔
      threads.control = .ready ∧
        next = { threads with
          control := .storeRunning
          cutoff :=
            if threads.thread = none then threads.cutoff
            else threads.returnedTickets } := by
  rw [stop, Option.ite_none_right_eq_some, Option.some_inj,
    eq_comm (a := next)]

theorem advanceControl_eq_some (stepped : threads.advanceControl = some next) :
    (threads.control = .spawn ∧
        next = { threads with thread := some .whileTest, control := .ready }) ∨
      (threads.control = .storeRunning ∧
        next = { threads with running := false, control := .notifyAll }) ∨
      (threads.control = .notifyAll ∧
        next = { threads with
          thread := wake threads.thread, control := .join }) ∨
      (threads.control = .join ∧
        (threads.thread = none ∨ threads.thread = some .returned) ∧
        next = { threads with thread := none, control := .ready }) := by
  unfold advanceControl at stepped
  cases control : threads.control with
  | ready => simp [control] at stepped
  | spawn =>
      simp only [control, Option.some.injEq] at stepped
      exact .inl ⟨rfl, stepped.symm⟩
  | storeRunning =>
      simp only [control, Option.some.injEq] at stepped
      exact .inr (.inl ⟨rfl, stepped.symm⟩)
  | notifyAll =>
      simp only [control, Option.some.injEq] at stepped
      exact .inr (.inr (.inl ⟨rfl, stepped.symm⟩))
  | join =>
      simp only [control, Option.ite_none_right_eq_some,
        Option.some.injEq] at stepped
      exact .inr (.inr (.inr ⟨rfl, stepped.1, stepped.2.symm⟩))

theorem advanceLoop_eq_some (stepped : threads.advanceLoop = some next) :
    ∃ point after, threads.thread = some point ∧
      point.next threads.running threads.queue = some after ∧
      ((point.holdsLock = after.holdsLock ∧
          next = { threads with thread := some after }) ∨
        (point.holdsLock = false ∧ after.holdsLock = true ∧
          threads.owner = none ∧
          next = { threads with
            owner := some .loop, thread := some after }) ∨
        (point.holdsLock = true ∧ after.holdsLock = false ∧
          next = { threads with owner := none, thread := some after })) := by
  unfold advanceLoop at stepped
  cases thread : threads.thread with
  | none => simp [thread] at stepped
  | some point =>
      simp only [thread] at stepped
      cases moved : point.next threads.running threads.queue with
      | none => simp [moved] at stepped
      | some after =>
          refine ⟨point, after, rfl, moved, ?_⟩
          simp only [moved] at stepped
          cases before : point.holdsLock <;> cases later : after.holdsLock <;>
            simp only [before, later, Option.ite_none_right_eq_some,
              Option.some.injEq] at stepped
          · exact .inl ⟨rfl, stepped.symm⟩
          · exact .inr (.inl ⟨rfl, rfl, stepped.1, stepped.2.symm⟩)
          · exact .inr (.inr ⟨rfl, rfl, stepped.symm⟩)
          · exact .inl ⟨rfl, stepped.symm⟩

/-- Whatever the loop does with the lock, it only moves on. -/
theorem advanceLoop_moves (stepped : threads.advanceLoop = some next) :
    ∃ point after owner, threads.thread = some point ∧
      point.next threads.running threads.queue = some after ∧
      next = { threads with owner, thread := some after } := by
  obtain ⟨point, after, thread, moved, lock⟩ := advanceLoop_eq_some stepped
  rcases lock with ⟨_, rfl⟩ | ⟨_, _, _, rfl⟩ | ⟨_, _, rfl⟩
  · exact ⟨point, after, threads.owner, thread, moved, rfl⟩
  · exact ⟨point, after, some .loop, thread, moved, rfl⟩
  · exact ⟨point, after, none, thread, moved, rfl⟩

theorem takeRequest_eq_some {entry : Queued} :
    threads.takeRequest entry = some next ↔
      (threads.thread = some .take ∧ entry ∈ threads.queue ∧
          IsTop (threads.queue.map Queued.request) entry.request) ∧
        next = { threads with
          queue := threads.queue.erase entry
          thread := some (.leave (.run entry)) } := by
  rw [takeRequest, Option.ite_none_right_eq_some, Option.some_inj,
    eq_comm (a := next)]

theorem wakeSpuriously_eq_some :
    threads.wakeSpuriously = some next ↔
      threads.thread = some .blocked ∧
        next = { threads with thread := some .reacquire } := by
  rw [wakeSpuriously, Option.ite_none_right_eq_some, Option.some_inj,
    eq_comm (a := next)]

end Inversion

end Threads

end TradingBot
