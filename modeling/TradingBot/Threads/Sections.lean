import TradingBot.Threads.Refinement

namespace TradingBot

open Library

/-! A section of the loop, from one rest to the next, statement by statement. -/

/-- Between two sections, or inside `queueCV.wait` before it blocks. -/
def LoopPoint.Rests : LoopPoint → Prop
  | .whileTest | .acquire | .reacquire | .block | .blocked | .execute _
  | .returned => True
  | _ => False

namespace Threads

variable {threads : Threads} {point after : LoopPoint}

theorem advanceLoop_keeping (here : threads.thread = some point)
    (moved : point.next threads.running threads.queue = some after)
    (same : point.holdsLock = after.holdsLock) :
    machine.step threads .advanceLoop =
      some { threads with thread := some after } := by
  change threads.advanceLoop = _
  unfold advanceLoop
  cases locked : after.holdsLock <;>
    simp only [here, moved, same.trans locked, locked]

theorem advanceLoop_locking (here : threads.thread = some point)
    (moved : point.next threads.running threads.queue = some after)
    (free : point.holdsLock = false) (locks : after.holdsLock = true)
    (unlocked : threads.owner = none) :
    machine.step threads .advanceLoop =
      some { threads with owner := some .loop, thread := some after } := by
  change threads.advanceLoop = _
  simp only [advanceLoop, here, moved, free, locks, unlocked, if_true]

theorem advanceLoop_unlocking (here : threads.thread = some point)
    (moved : point.next threads.running threads.queue = some after)
    (locked : point.holdsLock = true) (frees : after.holdsLock = false) :
    machine.step threads .advanceLoop =
      some { threads with owner := none, thread := some after } := by
  change threads.advanceLoop = _
  simp only [advanceLoop, here, moved, locked, frees]

theorem visible_advanceLoop (here : threads.thread = some point) :
    threads.visible .advanceLoop =
      point.visible threads.running threads.queue := by
  simp [visible, here]

theorem performs_staying {events : List EngineAction}
    (here : threads.thread = some point)
    (moved : point.next threads.running threads.queue = some after)
    (same : point.holdsLock = after.holdsLock)
    (seen : point.visible threads.running threads.queue = events) :
    machine.Performs visible threads events
      { threads with thread := some after } := by
  rw [← seen, ← visible_advanceLoop here]
  exact .single (advanceLoop_keeping here moved same)

theorem performs_leaving {events : List EngineAction}
    (here : threads.thread = some point)
    (moved : point.next threads.running threads.queue = some after)
    (locked : point.holdsLock = true) (frees : after.holdsLock = false)
    (seen : point.visible threads.running threads.queue = events) :
    machine.Performs visible threads events
      { threads with owner := none, thread := some after } := by
  rw [← seen, ← visible_advanceLoop here]
  exact .single (advanceLoop_unlocking here moved locked frees)

/-- A statement inside the locked section that the engine does not see. -/
theorem performs_keeping (after : LoopPoint) {events : List EngineAction}
    {last : Threads} (here : threads.thread = some point)
    (moved : point.next threads.running threads.queue = some after)
    (same : point.holdsLock = after.holdsLock)
    (hidden : point.visible threads.running threads.queue = [])
    (rest : machine.Performs visible { threads with thread := some after }
      events last) :
    machine.Performs visible threads events last :=
  (performs_staying here moved same hidden).trans rest

theorem performs_entering {events : List EngineAction} {last : Threads}
    (waits : threads.thread = some .acquire ∨ threads.thread = some .reacquire)
    (unlocked : threads.owner = none)
    (rest : machine.Performs visible
      { threads with owner := some .loop, thread := some .predQueue }
      events last) :
    machine.Performs visible threads events last := by
  rcases waits with here | here
  · exact rest.silently (advanceLoop_locking here rfl rfl rfl unlocked)
      (visible_advanceLoop here)
  · exact rest.silently (advanceLoop_locking here rfl rfl rfl unlocked)
      (visible_advanceLoop here)

/-- The loop finds the queue empty and stays. -/
theorem performs_blocking
    (waits : threads.thread = some .acquire ∨ threads.thread = some .reacquire)
    (unlocked : threads.owner = none) (empty : threads.queue = [])
    (running : threads.running = true) :
    machine.Performs visible threads [.advance]
      { threads with owner := some .loop, thread := some .block } := by
  apply performs_entering waits unlocked
  refine performs_keeping .predRunning rfl ?_ rfl rfl ?_
  · simp [LoopPoint.next, empty]
  · exact performs_staying rfl (by simp [LoopPoint.next, running]) rfl
      (by simp [LoopPoint.visible, running])

/-- The loop finds the queue empty and `running` false, twice. -/
theorem performs_exiting
    (waits : threads.thread = some .acquire ∨ threads.thread = some .reacquire)
    (unlocked : threads.owner = none) (empty : threads.queue = [])
    (stopped : threads.running = false) :
    machine.Performs visible threads [.advance]
      { threads with owner := none, thread := some .returned } := by
  apply performs_entering waits unlocked
  refine performs_keeping .predRunning rfl ?_ rfl rfl ?_
  · simp [LoopPoint.next, empty]
  refine performs_keeping .exitRunning rfl ?_ rfl ?_ ?_
  · simp [LoopPoint.next, stopped]
  · simp [LoopPoint.visible, stopped]
  refine performs_keeping .exitQueue rfl ?_ rfl rfl ?_
  · simp [LoopPoint.next, stopped]
  have leaving : machine.Performs visible
      { threads with owner := some .loop, thread := some .exitQueue }
      [.advance]
      { threads with owner := some .loop, thread := some (.leave .exit) } :=
    performs_staying rfl (by simp [LoopPoint.next, empty]) rfl
      (by simp [LoopPoint.visible, empty])
  exact leaving.trans (performs_leaving rfl rfl rfl rfl rfl)

/-- With a request queued the loop gets to `top()`, whatever `running` says. -/
theorem performs_reaching {events : List EngineAction} {last : Threads}
    (waits : threads.thread = some .acquire ∨ threads.thread = some .reacquire)
    (unlocked : threads.owner = none) (nonempty : threads.queue ≠ [])
    (rest : machine.Performs visible
      { threads with owner := some .loop, thread := some .take } events last) :
    machine.Performs visible threads events last := by
  apply performs_entering waits unlocked
  refine performs_keeping .exitRunning rfl ?_ rfl rfl ?_
  · simp [LoopPoint.next, nonempty]
  have continuing : machine.Performs visible
      { threads with owner := some .loop, thread := some .continueTest }
      events last :=
    performs_keeping .take rfl (by simp [LoopPoint.next, nonempty])
      rfl rfl rest
  cases running : threads.running with
  | true =>
      refine performs_keeping .continueTest rfl ?_ rfl rfl ?_
      · simp [LoopPoint.next]
      · rwa [← running]
  | false =>
      refine performs_keeping .exitQueue rfl ?_ rfl rfl ?_
      · simp [LoopPoint.next]
      refine performs_keeping .continueTest rfl ?_ rfl ?_ ?_
      · simp [LoopPoint.next, nonempty]
      · simp [LoopPoint.visible, nonempty]
      · rwa [← running]

theorem performs_taking {entry : Queued}
    (waits : threads.thread = some .acquire ∨ threads.thread = some .reacquire)
    (unlocked : threads.owner = none) (member : entry ∈ threads.queue)
    (top : IsTop (threads.queue.map Queued.request) entry.request) :
    machine.Performs visible threads [.take entry.request]
      { threads with
        queue := threads.queue.erase entry
        owner := none
        thread := some (.execute entry) } := by
  apply performs_reaching waits unlocked (List.ne_nil_of_mem member)
  have taken : machine.step
      { threads with owner := some .loop, thread := some .take }
      (.takeRequest entry) = some { threads with
        queue := threads.queue.erase entry
        owner := some .loop
        thread := some (.leave (.run entry)) } :=
    takeRequest_eq_some.mpr ⟨⟨rfl, member, top⟩, rfl⟩
  exact (Machine.Performs.single taken).trans
    (performs_leaving rfl rfl rfl rfl rfl)

/-- Inside one more call of `submitOrder`. -/
def calling (threads : Threads) (request : ExecutionRequest)
    (point : SubmitPoint) (owner : Option Owner) (queue : List Queued) :
    Threads :=
  { threads with
    calls := threads.calls ++ [{ request, point }], owner, queue }

theorem calling_last (request : ExecutionRequest) (point : SubmitPoint)
    (owner : Option Owner) (queue : List Queued) :
    (threads.calling request point owner queue).calls[threads.calls.length]? =
      some { request, point } := by
  simp [calling]

theorem visible_calling (request : ExecutionRequest) (point : SubmitPoint)
    (owner : Option Owner) (queue : List Queued) :
    (threads.calling request point owner queue).visible
        (.advance threads.calls.length) =
      SubmitCall.visible { request, point } := by
  simp [visible, calling_last]

/-- A whole `submitOrder` up to its `notify_one`. -/
theorem performs_pushing (request : ExecutionRequest)
    (unlocked : threads.owner = none) :
    machine.Performs visible threads [.push request]
      (threads.calling request .notify none
        (threads.queue ++ [{ ticket := threads.calls.length, request }])) := by
  have called : machine.step threads (.submitOrder request) =
      some (threads.calling request .acquire none threads.queue) := by
    rw [← unlocked]
    rfl
  have locked : machine.step (threads.calling request .acquire none
      threads.queue) (.advance threads.calls.length) =
        some (threads.calling request .push
          (some (.caller threads.calls.length)) threads.queue) := by
    simp [machine, step, advance, calling, setPoint]
  have pushed : machine.step (threads.calling request .push
      (some (.caller threads.calls.length)) threads.queue)
      (.advance threads.calls.length) =
        some (threads.calling request .release
          (some (.caller threads.calls.length))
          (threads.queue ++ [{ ticket := threads.calls.length, request }])) := by
    simp [machine, step, advance, calling, setPoint]
  have released : machine.step (threads.calling request .release
      (some (.caller threads.calls.length))
      (threads.queue ++ [{ ticket := threads.calls.length, request }]))
      (.advance threads.calls.length) =
        some (threads.calling request .notify none
          (threads.queue ++ [{ ticket := threads.calls.length, request }])) := by
    simp [machine, step, advance, calling, setPoint]
  refine Machine.Performs.silently called rfl ?_
  refine Machine.Performs.silently locked (visible_calling ..) ?_
  have pushing : machine.Performs visible _ _ _ :=
    (Machine.Performs.single pushed).trans (.single released)
  rwa [visible_calling, visible_calling] at pushing

theorem performs_waking {ticket : Nat} {call : SubmitCall}
    (found : threads.calls[ticket]? = some call) (here : call.point = .notify) :
    machine.Performs visible threads [.notify]
      { threads with
        calls := threads.setPoint ticket call .returned
        thread := wake threads.thread } := by
  have notified : machine.step threads (.advance ticket) =
      some { threads with
        calls := threads.setPoint ticket call .returned
        thread := wake threads.thread } := by
    change threads.advance ticket = _
    simp only [advance, found, here]
  have seen : threads.visible (.advance ticket) = [.notify] := by
    simp [visible, found, SubmitCall.visible, here]
  rw [← seen]
  exact .single notified

theorem performs_starting (ready : threads.control = .ready)
    (stopped : threads.running = false) :
    machine.Performs visible threads [.setRunning, .spawn]
      { threads with
        running := true, thread := some .whileTest, control := .ready } := by
  have started : machine.step threads .start =
      some { threads with running := true, control := .spawn } :=
    start_eq_some.mpr ⟨ready, by simp [stopped]⟩
  have spawned : machine.step
      { threads with running := true, control := .spawn } .advanceControl =
        some { threads with
          running := true, thread := some .whileTest, control := .ready } :=
    rfl
  exact (Machine.Performs.single started).trans (.single spawned)

theorem performs_control {events : List EngineAction} {last : Threads}
    (seen : threads.control.visible = events)
    (stepped : machine.step threads .advanceControl = some last) :
    machine.Performs visible threads events last := by
  rw [← seen]
  exact .single stepped

theorem performs_stopping (ready : threads.control = .ready) :
    ∃ cutoff, machine.Performs visible threads [.clearRunning]
      { threads with running := false, control := .notifyAll, cutoff } := by
  have stopping : machine.step threads .stop = _ :=
    stop_eq_some.mpr ⟨ready, rfl⟩
  exact ⟨_, (performs_control rfl rfl).silently stopping rfl⟩

theorem performs_notifying (here : threads.control = .notifyAll) :
    machine.Performs visible threads [.notify]
      { threads with thread := wake threads.thread, control := .join } := by
  apply performs_control
  · rw [here]
    rfl
  · change threads.advanceControl = _
    simp only [advanceControl, here]

theorem performs_joining (here : threads.control = .join)
    (returned : threads.thread = some .returned) :
    machine.Performs visible threads [.join]
      { threads with thread := none, control := .ready } := by
  apply performs_control
  · rw [here]
    rfl
  · change threads.advanceControl = _
    simp only [advanceControl, here, returned, or_true, if_true]

end Threads

end TradingBot
