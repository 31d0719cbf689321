import TradingBot.Threads.Orderly

namespace TradingBot

/-! What `stop` leaves in the queue: once `running` is cleared, the loop takes
at most one more request. -/

/-- Past the test of `running`, and not yet past the choice of a request. -/
def LoopPoint.stillTakes : LoopPoint → Bool
  | .acquire | .predQueue | .predRunning | .block | .blocked | .reacquire
  | .exitRunning | .exitQueue | .continueTest | .take => true
  | _ => false

namespace Threads

/-- The queued requests whose `submitOrder` had returned when `stop` began. -/
def leftOver (threads : Threads) : List Queued :=
  threads.queue.filter fun entry => entry.ticket ∈ threads.cutoff

/-- No request whose `submitOrder` had returned when `stop` began is queued. -/
def CutoffExecuted (threads : Threads) : Prop :=
  ∀ entry ∈ threads.queue, entry.ticket ∉ threads.cutoff

/-- Once `executionLoop` has returned, all requests from before the `stop` have
been executed. -/
def ShutdownDrains (threads : Threads) : Prop :=
  threads.thread = none ∨ threads.thread = some .returned →
    threads.CutoffExecuted

/-- How many requests the loop takes before its next test of `running`. -/
def takesLeft (threads : Threads) : Nat :=
  if threads.thread.any LoopPoint.stillTakes then 1 else 0

/-- `running` is cleared while the loop has at most one request from before the
`stop` to take, and only if it is past its test; what it takes after that is
such a request, if there is one. -/
def StopsInTime (threads : Threads) : ThreadAction → Prop
  | .advanceControl =>
      threads.control = .storeRunning →
        threads.leftOver.length ≤ threads.takesLeft
  | .takeRequest entry =>
      threads.running = false → threads.leftOver ≠ [] →
        entry.ticket ∈ threads.cutoff
  | _ => True

/-- The loop is not on its way out after a `stop`. -/
def Settled (threads : Threads) : Prop :=
  threads.running = true ∨ threads.thread = none ∨
    threads.thread = some .returned

instance (threads : Threads) : Decidable threads.CutoffExecuted :=
  inferInstanceAs (Decidable (∀ _ ∈ _, _))

instance : DecidablePred ShutdownDrains := fun threads =>
  inferInstanceAs (Decidable (_ → threads.CutoffExecuted))

instance (threads : Threads) : ∀ action, Decidable (threads.StopsInTime action)
  | .advanceControl => inferInstanceAs (Decidable (_ → _ ≤ _))
  | .takeRequest _ => inferInstanceAs (Decidable (_ → _ → _))
  | .submitOrder _ | .advance _ | .start | .stop | .advanceLoop
  | .wakeSpuriously => inferInstanceAs (Decidable True)

theorem cutoffExecuted_iff {threads : Threads} :
    threads.CutoffExecuted ↔ threads.leftOver = [] := by
  simp [CutoffExecuted, leftOver, List.filter_eq_nil_iff]

theorem takesLeft_eq_zero {threads : Threads}
    (gone : threads.thread = none ∨ threads.thread = some .returned) :
    threads.takesLeft = 0 := by
  rcases gone with absent | returned
  · simp [takesLeft, absent]
  · simp [takesLeft, returned, LoopPoint.stillTakes]

/-- A call that is about to push had not returned when `stop` began. -/
theorem Orderly.leftOver_push {threads : Threads} (orderly : threads.Orderly)
    {ticket : Nat} {call : SubmitCall}
    (found : threads.calls[ticket]? = some call) (point : call.point = .push)
    (calls : List SubmitCall) :
    leftOver { threads with
      calls, queue := threads.queue ++ [{ ticket, request := call.request }] } =
        threads.leftOver := by
  have late : ticket ∉ threads.cutoff := by
    intro returned
    have last := orderly.cutoff ticket returned
    rw [callAt_own found, point] at last
    cases last
  simp [leftOver, List.filter_append, late]

theorem any_stillTakes_wake (thread : Option LoopPoint) :
    (wake thread).any LoopPoint.stillTakes =
      thread.any LoopPoint.stillTakes := by
  cases thread with
  | none => rfl
  | some point => cases point <;> rfl

/-- Without a request the loop only leaves off taking when it finds none, and
it only begins when it finds `running` set. -/
theorem stillTakes_of_next {running : Bool} {queue : List Queued}
    {point after : LoopPoint}
    (moved : point.next running queue = some after) (requests : queue ≠ [])
    (stopped : running = false) : after.stillTakes = point.stillTakes := by
  subst stopped
  cases point with
  | leave leave => cases leave <;> cases moved <;> rfl
  | _ =>
      simp only [LoopPoint.next, requests] at moved
      cases moved <;> rfl

/-- The loop will still take whatever is left over. -/
def InTime (threads : Threads) : Prop :=
  threads.leftOver.length ≤ threads.takesLeft

/-- `running` is cleared, or there is no loop that could test it. -/
def Halting (threads : Threads) : Prop :=
  threads.running = false ∨ threads.thread = none

section Step

variable {threads next : Threads}

theorem inTime_congr (leftOver : next.leftOver = threads.leftOver)
    (thread : next.thread.any LoopPoint.stillTakes =
      threads.thread.any LoopPoint.stillTakes) :
    next.InTime ↔ threads.InTime := by
  rw [InTime, InTime, leftOver, takesLeft, takesLeft, thread]

theorem inTime_of_gone
    (gone : threads.thread = none ∨ threads.thread = some .returned) :
    threads.InTime ↔ threads.CutoffExecuted := by
  rw [InTime, takesLeft_eq_zero gone, Nat.le_zero, List.length_eq_zero_iff,
    cutoffExecuted_iff]

theorem Orderly.inTime_advance (orderly : threads.Orderly) {ticket : Nat}
    (stepped : threads.advance ticket = some next) :
    next.InTime ↔ threads.InTime := by
  obtain ⟨call, found, ⟨_, _, rfl⟩ | ⟨point, rfl⟩ | ⟨_, rfl⟩ | ⟨_, rfl⟩⟩ :=
    advance_eq_some stepped
  · exact inTime_congr rfl rfl
  · exact inTime_congr (orderly.leftOver_push found point _) rfl
  · exact inTime_congr rfl rfl
  · exact inTime_congr rfl (any_stillTakes_wake threads.thread)

theorem Orderly.inTime_stop (orderly : threads.Orderly)
    (halting : threads.Halting) (stepped : threads.stop = some next) :
    next.InTime ↔ threads.InTime := by
  obtain ⟨ready, rfl⟩ := stop_eq_some.mp stepped
  have absent : threads.thread = none := by
    rcases halting with stopped | absent
    · by_contra joinable
      rw [orderly.running_at_ready ready joinable] at stopped
      cases stopped
    · exact absent
  exact inTime_congr (by simp [leftOver, absent]) rfl

theorem Orderly.inTime_advanceControl (orderly : threads.Orderly)
    (stepped : threads.advanceControl = some next) :
    next.InTime ↔ threads.InTime ∧ threads.StopsInTime .advanceControl := by
  obtain ⟨spawn, rfl⟩ | ⟨store, rfl⟩ | ⟨notify, rfl⟩ | ⟨join, gone, rfl⟩ :=
    advanceControl_eq_some stepped
  · simp only [StopsInTime, spawn, reduceCtorEq, false_implies, and_true]
    refine inTime_congr rfl ?_
    rw [(orderly.spawning spawn).1]
    rfl
  · simp only [StopsInTime, store, true_implies]
    exact (and_iff_left_of_imp id).symm
  · simp only [StopsInTime, notify, reduceCtorEq, false_implies, and_true]
    exact inTime_congr rfl (any_stillTakes_wake threads.thread)
  · simp only [StopsInTime, join, reduceCtorEq, false_implies, and_true]
    refine inTime_congr rfl ?_
    rcases gone with absent | returned
    · rw [absent]
    · rw [returned]
      rfl

theorem inTime_advanceLoop (halting : threads.Halting)
    (stepped : threads.advanceLoop = some next) :
    next.InTime ↔ threads.InTime := by
  obtain ⟨point, after, owner, thread, moved, rfl⟩ := advanceLoop_moves stepped
  have stopped : threads.running = false := by
    rcases halting with stopped | absent
    · exact stopped
    · rw [thread] at absent
      cases absent
  by_cases none : threads.leftOver = []
  · simp only [InTime]
    have kept : leftOver { threads with owner, thread := some after } = [] :=
      none
    rw [kept, none, List.length_nil]
    exact iff_of_true (Nat.zero_le _) (Nat.zero_le _)
  · refine inTime_congr rfl ?_
    rw [thread, Option.any_some, Option.any_some]
    refine stillTakes_of_next moved (fun empty => none ?_) stopped
    simp [leftOver, empty]

/-- The one request that the loop still takes is the one left over, or there is
none. -/
theorem inTime_takeRequest {entry : Queued} (stopped : threads.running = false)
    (stepped : threads.takeRequest entry = some next) :
    next.InTime ↔
      threads.InTime ∧ threads.StopsInTime (.takeRequest entry) := by
  obtain ⟨⟨thread, member, _⟩, rfl⟩ := takeRequest_eq_some.mp stepped
  have rest : leftOver { threads with
      queue := threads.queue.erase entry
      thread := some (.leave (.run entry)) } = threads.leftOver.erase entry := by
    rw [leftOver, leftOver, List.erase_filter]
  have listed : entry ∈ threads.leftOver ↔ entry.ticket ∈ threads.cutoff := by
    simp [leftOver, member]
  have before : threads.takesLeft = 1 := by
    simp [takesLeft, thread, LoopPoint.stillTakes]
  have after : takesLeft { threads with
      queue := threads.queue.erase entry
      thread := some (.leave (.run entry)) } = 0 := rfl
  simp only [InTime, StopsInTime, stopped, true_implies, ← listed]
  rw [stopped] at rest after
  rw [rest, before, after, List.length_erase, Nat.le_zero]
  by_cases left : entry ∈ threads.leftOver
  · have some := List.length_pos_of_mem left
    simp only [left, if_true, implies_true, and_true]
    omega
  · simp only [left, if_false, imp_false, not_not, List.length_eq_zero_iff]
    constructor
    · intro empty
      simp [empty]
    · exact And.right

theorem Orderly.inTime_step (orderly : threads.Orderly)
    (halting : threads.Halting) {action : ThreadAction}
    (stepped : threads.step action = some next) :
    next.InTime ↔ threads.InTime ∧ threads.StopsInTime action := by
  cases action with
  | submitOrder request =>
      cases stepped
      exact (and_iff_left trivial).symm
  | advance ticket =>
      exact (orderly.inTime_advance stepped).trans (and_iff_left trivial).symm
  | start =>
      obtain ⟨_, rfl⟩ := start_eq_some.mp stepped
      exact (and_iff_left trivial).symm
  | stop =>
      exact (orderly.inTime_stop halting stepped).trans
        (and_iff_left trivial).symm
  | advanceControl => exact orderly.inTime_advanceControl stepped
  | advanceLoop =>
      exact (inTime_advanceLoop halting stepped).trans
        (and_iff_left trivial).symm
  | takeRequest entry =>
      refine inTime_takeRequest ?_ stepped
      obtain ⟨⟨thread, _⟩, _⟩ := takeRequest_eq_some.mp stepped
      rcases halting with stopped | absent
      · exact stopped
      · rw [thread] at absent
        cases absent
  | wakeSpuriously =>
      obtain ⟨thread, rfl⟩ := wakeSpuriously_eq_some.mp stepped
      have kept : InTime { threads with thread := some .reacquire } ↔
          threads.InTime := by
        refine inTime_congr rfl ?_
        rw [thread]
        rfl
      exact kept.trans (and_iff_left trivial).symm

/-- Only the store of `stop` makes a running loop a halting one. -/
theorem Orderly.storeRunning_of_halting (orderly : threads.Orderly)
    (busy : ¬ threads.Halting) {action : ThreadAction}
    (stepped : threads.step action = some next) (halting : next.Halting) :
    action = .advanceControl ∧ threads.control = .storeRunning ∧
      (next.InTime ↔ threads.InTime) := by
  simp only [Halting, not_or, Bool.not_eq_false] at busy
  obtain ⟨running, joinable⟩ := busy
  have kept : ∀ {later : Threads}, later.running = threads.running →
      later.thread ≠ none → ¬ later.Halting := by
    intro later same present gone
    rcases gone with stopped | absent
    · rw [same, running] at stopped
      cases stopped
    · exact present absent
  have woken : Threads.wake threads.thread ≠ none := by simpa using joinable
  cases action with
  | submitOrder request =>
      cases stepped
      exact absurd halting (kept rfl joinable)
  | advance ticket =>
      obtain ⟨_, _, ⟨_, _, rfl⟩ | ⟨_, rfl⟩ | ⟨_, rfl⟩ | ⟨_, rfl⟩⟩ :=
        advance_eq_some stepped
      · exact absurd halting (kept rfl joinable)
      · exact absurd halting (kept rfl joinable)
      · exact absurd halting (kept rfl joinable)
      · exact absurd halting (kept rfl woken)
  | start =>
      obtain ⟨_, rfl⟩ := start_eq_some.mp stepped
      exact absurd halting (kept running.symm joinable)
  | stop =>
      obtain ⟨_, rfl⟩ := stop_eq_some.mp stepped
      exact absurd halting (kept rfl joinable)
  | advanceControl =>
      obtain ⟨_, rfl⟩ | ⟨store, rfl⟩ | ⟨_, rfl⟩ | ⟨_, gone, rfl⟩ :=
        advanceControl_eq_some stepped
      · exact absurd halting (kept rfl (by simp))
      · exact ⟨rfl, store, inTime_congr rfl rfl⟩
      · exact absurd halting (kept rfl woken)
      · rcases gone with absent | returned
        · exact absurd absent joinable
        · have stopped := orderly.exiting _ returned trivial
          rw [running] at stopped
          cases stopped
  | advanceLoop =>
      obtain ⟨_, _, _, _, _, rfl⟩ := advanceLoop_moves stepped
      exact absurd halting (kept rfl (by simp))
  | takeRequest entry =>
      obtain ⟨_, rfl⟩ := takeRequest_eq_some.mp stepped
      exact absurd halting (kept rfl (by simp))
  | wakeSpuriously =>
      obtain ⟨_, rfl⟩ := wakeSpuriously_eq_some.mp stepped
      exact absurd halting (kept rfl (by simp))

end Step

structure Draining (threads : Threads) : Prop extends Orderly threads where
  inTime : threads.Halting → threads.InTime

theorem draining_init : init.Draining where
  toOrderly := orderly_init
  inTime := by simp [InTime, leftOver, init]

theorem Draining.step {threads next : Threads} {action : ThreadAction}
    (draining : threads.Draining) (stops : threads.StopsInTime action)
    (stepped : threads.step action = some next) : next.Draining where
  toOrderly := draining.toOrderly.step stepped
  inTime halting := by
    by_cases before : threads.Halting
    · exact (draining.inTime_step before stepped).mpr
        ⟨draining.inTime before, stops⟩
    · obtain ⟨rfl, store, inTime⟩ :=
        draining.storeRunning_of_halting before stepped halting
      exact inTime.mpr (stops store)

theorem Orderly.halting_of_gone {threads : Threads} (orderly : threads.Orderly)
    (gone : threads.thread = none ∨ threads.thread = some .returned) :
    threads.Halting := by
  rcases gone with absent | returned
  · exact .inr absent
  · exact .inl (orderly.exiting _ returned trivial)

theorem Draining.drains {threads : Threads} (draining : threads.Draining) :
    threads.ShutdownDrains := fun gone =>
  (inTime_of_gone gone).mp
    (draining.inTime (draining.halting_of_gone gone))

/-- A loop that is on its way out after a `stop` goes on to be so. -/
theorem Orderly.halting_step {threads next : Threads}
    (orderly : threads.Orderly) (stopped : threads.running = false)
    (joinable : threads.thread ≠ none) {action : ThreadAction}
    (stepped : threads.step action = some next) : next.Halting := by
  have stopping := orderly.stopping joinable stopped
  cases action with
  | submitOrder request =>
      cases stepped
      exact .inl stopped
  | advance ticket =>
      obtain ⟨_, _, ⟨_, _, rfl⟩ | ⟨_, rfl⟩ | ⟨_, rfl⟩ | ⟨_, rfl⟩⟩ :=
        advance_eq_some stepped
      · exact .inl stopped
      · exact .inl stopped
      · exact .inl stopped
      · exact .inl stopped
  | start =>
      obtain ⟨ready, _⟩ := start_eq_some.mp stepped
      rw [ready] at stopping
      exact stopping.elim
  | stop =>
      obtain ⟨ready, _⟩ := stop_eq_some.mp stepped
      rw [ready] at stopping
      exact stopping.elim
  | advanceControl =>
      obtain ⟨spawn, _⟩ | ⟨_, rfl⟩ | ⟨_, rfl⟩ | ⟨_, _, rfl⟩ :=
        advanceControl_eq_some stepped
      · rw [spawn] at stopping
        exact stopping.elim
      · exact .inl rfl
      · exact .inl stopped
      · exact .inl stopped
  | advanceLoop =>
      obtain ⟨_, _, _, _, _, rfl⟩ := advanceLoop_moves stepped
      exact .inl stopped
  | takeRequest entry =>
      obtain ⟨_, rfl⟩ := takeRequest_eq_some.mp stepped
      exact .inl stopped
  | wakeSpuriously =>
      obtain ⟨_, rfl⟩ := wakeSpuriously_eq_some.mp stepped
      exact .inl stopped

/-- From the end of a settled run back: whatever was not in time when the loop
began to halt is still in the queue when it has returned. -/
theorem Orderly.along_of_throughout {threads final : Threads}
    {actions : List ThreadAction} (orderly : threads.Orderly)
    (ran : machine.run threads actions = some final) (settled : final.Settled)
    (throughout : machine.Throughout ShutdownDrains threads actions) :
    (threads.Halting → threads.InTime) ∧
      machine.Along StopsInTime threads actions := by
  have gone : ∀ {state : Threads}, state.ShutdownDrains →
      state.thread = none ∨ state.thread = some .returned → state.InTime :=
    fun drains gone => (inTime_of_gone gone).mpr (drains gone)
  induction actions generalizing threads with
  | nil =>
      cases ran
      refine ⟨fun halting => gone throughout ?_, trivial⟩
      rcases settled with running | settled
      · exact .inl (halting.resolve_left (by simp [running]))
      · exact settled
  | cons action rest induction =>
      obtain ⟨next, stepped, ran⟩ := Library.Machine.run_cons_eq_some.mp ran
      rw [Library.Machine.throughout_cons stepped] at throughout
      obtain ⟨later, along⟩ :=
        induction (orderly.step stepped) ran throughout.2
      rw [Library.Machine.along_cons stepped]
      by_cases halting : threads.Halting
      · have both : threads.InTime ∧ threads.StopsInTime action := by
          by_cases out : threads.thread = none ∨
              threads.thread = some .returned
          · have inTime := gone throughout.1 out
            refine ⟨inTime, ?_⟩
            cases action with
            | advanceControl => exact fun _ => inTime
            | takeRequest entry =>
                obtain ⟨⟨thread, _⟩, _⟩ := takeRequest_eq_some.mp stepped
                rw [thread] at out
                simp at out
            | _ => trivial
          · have joinable : threads.thread ≠ none := fun absent =>
              out (.inl absent)
            have after := orderly.halting_step
              (halting.resolve_right joinable) joinable stepped
            exact (orderly.inTime_step halting stepped).mp (later after)
        exact ⟨fun _ => both.1, both.2, along⟩
      · refine ⟨fun halts => absurd halts halting, ?_, along⟩
        cases action with
        | advanceControl =>
            intro store
            have moved : threads.step .advanceControl = some next := stepped
            have stored : next.running = false := by
              obtain ⟨other, _⟩ | ⟨_, rfl⟩ | ⟨other, _⟩ | ⟨other, _⟩ :=
                advanceControl_eq_some stepped
              · rw [store] at other
                cases other
              · rfl
              · rw [store] at other
                cases other
              · rw [store] at other
                cases other
            obtain ⟨_, _, inTime⟩ :=
              orderly.storeRunning_of_halting halting moved (.inl stored)
            exact inTime.mp (later (.inl stored))
        | takeRequest entry =>
            exact fun stopped => absurd (.inl stopped) halting
        | _ => trivial

/-- Shutdown drains the queue in every run whose stops come in time, and only
in these of the runs that end with no loop on its way out. -/
theorem shutdown_drains_iff (actions : List ThreadAction) :
    (machine.Along StopsInTime init actions →
        machine.Throughout ShutdownDrains init actions) ∧
      ∀ final, machine.run init actions = some final → final.Settled →
        machine.Throughout ShutdownDrains init actions →
          machine.Along StopsInTime init actions := by
  constructor
  · intro along
    exact Library.Machine.throughout_of_preserves Draining draining_init along
      (fun _ draining => draining.drains)
      fun _ _ _ draining stops stepped => draining.step stops stepped
  · intro final ran settled throughout
    exact (orderly_init.along_of_throughout ran settled throughout).2

private def anyRequest : ExecutionRequest :=
  { orderId := 1000, symbol := "AAPL", side := .buy, price := 100,
    quantity := 100, priority := .high, timestamp := default }

/-- A submit completes and `stop` clears `running` when the loop is past its
test, which then still takes the request. -/
def stoppedAfterTest : List ThreadAction :=
  [.start, .advanceControl, .advanceLoop, .submitOrder anyRequest, .advance 0,
    .advance 0, .advance 0, .advance 0, .stop, .advanceControl, .advanceLoop,
    .advanceLoop, .advanceLoop, .advanceLoop, .advanceLoop,
    .takeRequest { ticket := 0, request := anyRequest }, .advanceLoop,
    .advanceLoop, .advanceLoop, .advanceControl, .advanceControl]

theorem shutdown_drains_after_test :
    (machine.run init stoppedAfterTest).map
        (fun threads => (threads.thread, threads.control, threads.queue)) =
        some (none, .ready, []) ∧
      machine.Throughout ShutdownDrains init stoppedAfterTest :=
  ⟨by decide, (shutdown_drains_iff stoppedAfterTest).1 (by decide)⟩

/-- A submit completes, then `stop` clears `running` before the loop's first
test of it. -/
def stoppedBeforeGuard : List ThreadAction :=
  [.start, .advanceControl, .submitOrder anyRequest, .advance 0, .advance 0,
    .advance 0, .advance 0, .stop, .advanceControl, .advanceLoop]

theorem submitted_request_is_dropped :
    ¬ machine.Throughout ShutdownDrains init stoppedBeforeGuard := by
  decide

end Threads

end TradingBot
