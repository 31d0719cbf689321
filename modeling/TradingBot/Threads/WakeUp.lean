import TradingBot.Threads.Orderly

namespace TradingBot

namespace Threads

/-! The wake-ups of `executionLoop`. -/

def Ready (threads : Threads) : Prop :=
  threads.queue ≠ [] ∨ threads.running = false

/-- No call of `submitOrder` or `stop` has its notification still to do. -/
def AllNotified (threads : Threads) : Prop :=
  (∀ call ∈ threads.calls, call.point = .returned) ∧
    threads.control ≠ .storeRunning ∧ threads.control ≠ .notifyAll

/-- The loop waits with its predicate true, and nobody will wake it. -/
def Stranded (threads : Threads) : Prop :=
  threads.thread = some .blocked ∧ threads.Ready ∧ threads.AllNotified

/-- `stop` does not notify between the loop's test of the predicate and its
block. -/
def NotifiesOutsideWindow (threads : Threads) : ThreadAction → Prop
  | .advanceControl =>
      threads.control = .notifyAll → threads.thread ≠ some .block
  | _ => True

instance : DecidablePred Stranded := fun _ =>
  inferInstanceAs (Decidable (_ ∧ (_ ∨ _) ∧ (∀ _ ∈ _, _) ∧ _))

instance (threads : Threads) : DecidablePred threads.NotifiesOutsideWindow
  | .advanceControl => inferInstanceAs (Decidable (_ → _ ≠ _))
  | .submitOrder _ | .advance _ | .start | .stop | .advanceLoop
  | .takeRequest _ | .wakeSpuriously => inferInstanceAs (Decidable True)

/-- A pushed request whose `notify_one` is still to come. -/
def OwesNotify (calls : List SubmitCall) : Prop :=
  ∃ ticket, CallAt calls ticket fun point => point = .release ∨ point = .notify

structure Watchful (threads : Threads) : Prop extends Orderly threads where
  tested : threads.thread = some .predRunning ∨ threads.thread = some .block →
    threads.queue = []
  flagged : threads.thread = some .block ∨ threads.thread = some .blocked →
    threads.running = true ∨ threads.control = .notifyAll
  owed : threads.thread = some .blocked →
    threads.queue = [] ∨ OwesNotify threads.calls

theorem watchful_init : init.Watchful where
  toOrderly := orderly_init
  tested := by simp [init]
  flagged := by simp [init]
  owed := by simp [init]

theorem Watchful.not_stranded {threads : Threads}
    (watchful : threads.Watchful) : ¬ threads.Stranded := by
  intro stranded
  obtain ⟨blocked, ready, returned, _, notified⟩ := stranded
  rcases ready with nonempty | stopped
  · rcases watchful.owed blocked with empty | ⟨ticket, call, found, owes⟩
    · exact nonempty empty
    · rw [returned call (List.mem_of_getElem? found)] at owes
      rcases owes with owes | owes <;> cases owes
  · rcases watchful.flagged (.inr blocked) with running | notifying
    · rw [stopped] at running
      cases running
    · exact notified notifying

theorem OwesNotify.setPoint {threads : Threads} {ticket : Nat}
    {call : SubmitCall} (owes : OwesNotify threads.calls)
    (found : threads.calls[ticket]? = some call) {point : SubmitPoint}
    (still : call.point = .release ∨ call.point = .notify →
      point = .release ∨ point = .notify) :
    OwesNotify (threads.setPoint ticket call point) := by
  obtain ⟨other, owing⟩ := owes
  refine ⟨other, (callAt_setPoint found).mpr ?_⟩
  split
  next same =>
      rw [same, callAt_own found] at owing
      exact still owing
  next => exact owing

theorem Watchful.wake_tested {threads : Threads} (watchful : threads.Watchful)
    (testing : wake threads.thread = some .predRunning ∨
      wake threads.thread = some .block) : threads.queue = [] := by
  rcases testing with testing | blocking
  · exact watchful.tested (.inl (of_wake_eq testing (by simp)))
  · exact watchful.tested (.inr (of_wake_eq blocking (by simp)))

theorem block_of_wake {thread : Option LoopPoint}
    (waiting : wake thread = some .block ∨ wake thread = some .blocked) :
    thread = some .block := by
  rcases waiting with blocking | blocked
  · exact of_wake_eq blocking (by simp)
  · exact absurd blocked (wake_ne_blocked thread)

theorem Watchful.advance {threads next : Threads}
    (watchful : threads.Watchful) {ticket : Nat}
    (stepped : threads.advance ticket = some next) : next.Watchful := by
  have orderly := watchful.toOrderly.advance stepped
  obtain ⟨call, found, ⟨point, _, rfl⟩ | ⟨point, rfl⟩ | ⟨point, rfl⟩ |
    ⟨_, rfl⟩⟩ := advance_eq_some stepped
  · refine ⟨orderly, watchful.tested, watchful.flagged, fun blocked => ?_⟩
    exact (watchful.owed blocked).imp_right fun owes =>
      owes.setPoint found (by simp [point])
  · -- the loop does not hold the lock now
    have owns := watchful.callerOwns ticket ((callAt_own found).mpr (by
      simp [point, SubmitPoint.holdsLock]))
    refine ⟨orderly, fun testing => ?_, watchful.flagged, fun _ => .inr ?_⟩
    · rcases testing with testing | testing <;>
        · rw [watchful.loopOwns _ testing rfl] at owns
          cases owns
    · exact ⟨ticket, (callAt_setPoint found).mpr (by simp)⟩
  · refine ⟨orderly, watchful.tested, watchful.flagged, fun blocked => ?_⟩
    exact (watchful.owed blocked).imp_right fun owes =>
      owes.setPoint found fun _ => .inr rfl
  · refine ⟨orderly, fun testing => ?_, fun waiting => ?_, fun blocked => ?_⟩
    · exact watchful.wake_tested testing
    · exact watchful.flagged (.inl (block_of_wake waiting))
    · exact absurd blocked (wake_ne_blocked _)

theorem Watchful.advanceControl {threads next : Threads}
    (watchful : threads.Watchful)
    (outside : threads.NotifiesOutsideWindow .advanceControl)
    (stepped : threads.advanceControl = some next) : next.Watchful := by
  have orderly := watchful.toOrderly.advanceControl stepped
  obtain ⟨_, rfl⟩ | ⟨_, rfl⟩ | ⟨notifying, rfl⟩ | ⟨_, _, rfl⟩ :=
    advanceControl_eq_some stepped
  · exact ⟨orderly, by simp, by simp, by simp⟩
  · exact ⟨orderly, watchful.tested, fun _ => .inr rfl, watchful.owed⟩
  · refine ⟨orderly, fun testing => ?_, fun waiting => ?_, fun blocked => ?_⟩
    · exact watchful.wake_tested testing
    · exact absurd (block_of_wake waiting) (outside notifying)
    · exact absurd blocked (wake_ne_blocked _)
  · exact ⟨orderly, by simp, by simp, by simp⟩

/-- How the loop comes to wait: it finds the queue empty, then `running` set,
and blocks. -/
theorem wait_of_next {running : Bool} {queue : List Queued}
    {point after : LoopPoint}
    (moved : point.next running queue = some after) :
    (after = .predRunning → queue = []) ∧
      (after = .block → point = .predRunning ∧ running = true) ∧
      (after = .blocked → point = .block) := by
  cases point with
  | leave leave => cases leave <;> cases moved <;> simp
  | _ =>
      simp only [LoopPoint.next] at moved
      grind

theorem Watchful.advanceLoop {threads next : Threads}
    (watchful : threads.Watchful)
    (stepped : threads.advanceLoop = some next) : next.Watchful := by
  have orderly := watchful.toOrderly.advanceLoop stepped
  obtain ⟨point, after, owner, thread, moved, rfl⟩ := advanceLoop_moves stepped
  obtain ⟨empty, blocks, waits⟩ := wait_of_next moved
  refine ⟨orderly, fun testing => ?_, fun waiting => ?_, fun blocked => ?_⟩
  · rcases testing with testing | blocking
    · exact empty (Option.some.inj testing)
    · obtain ⟨rfl, _⟩ := blocks (Option.some.inj blocking)
      exact watchful.tested (.inl thread)
  · rcases waiting with blocking | blocked
    · exact .inl (blocks (Option.some.inj blocking)).2
    · rw [waits (Option.some.inj blocked)] at thread
      exact watchful.flagged (.inl thread)
  · rw [waits (Option.some.inj blocked)] at thread
    exact .inl (watchful.tested (.inr thread))

theorem Watchful.step {threads next : Threads} {action : ThreadAction}
    (watchful : threads.Watchful)
    (outside : threads.NotifiesOutsideWindow action)
    (stepped : threads.step action = some next) : next.Watchful := by
  have orderly := watchful.toOrderly.step stepped
  cases action with
  | submitOrder request =>
      cases stepped
      refine ⟨orderly, watchful.tested, watchful.flagged, fun blocked => ?_⟩
      rcases watchful.owed blocked with empty | ⟨ticket, owing⟩
      · exact .inl empty
      · exact .inr ⟨ticket, callAt_submitOrder.mpr (.inl owing)⟩
  | advance ticket => exact watchful.advance stepped
  | start =>
      obtain ⟨_, rfl⟩ := start_eq_some.mp stepped
      exact ⟨orderly, watchful.tested, fun _ => .inl rfl, watchful.owed⟩
  | stop =>
      obtain ⟨ready, rfl⟩ := stop_eq_some.mp stepped
      refine ⟨orderly, watchful.tested, fun waiting => ?_, watchful.owed⟩
      rcases watchful.flagged waiting with running | notifying
      · exact .inl running
      · rw [ready] at notifying
        cases notifying
  | advanceControl => exact watchful.advanceControl outside stepped
  | advanceLoop => exact watchful.advanceLoop stepped
  | takeRequest entry =>
      obtain ⟨_, rfl⟩ := takeRequest_eq_some.mp stepped
      exact ⟨orderly, by simp, by simp, by simp⟩
  | wakeSpuriously =>
      obtain ⟨_, rfl⟩ := wakeSpuriously_eq_some.mp stepped
      exact ⟨orderly, by simp, by simp, by simp⟩

/-- A loop is never stranded in a run whose `stop` calls notify outside the
window between its test and its block. -/
theorem no_lost_wake_up (actions : List ThreadAction)
    (outside : machine.Along NotifiesOutsideWindow init actions) :
    machine.Throughout (fun threads => ¬ threads.Stranded) init actions :=
  Library.Machine.throughout_of_preserves Watchful watchful_init outside
    (fun _ watchful => watchful.not_stranded)
    fun _ _ _ watchful outside stepped => watchful.step outside stepped

private def someRequest : ExecutionRequest :=
  { orderId := 1000, symbol := "AAPL", side := .sell, price := 100,
    quantity := 100, priority := .high, timestamp := default }

/-- The loop blocks, a submit wakes it, and `stop` finds it executing. -/
def wokenAndStopped : List ThreadAction :=
  [.start, .advanceControl, .advanceLoop, .advanceLoop, .advanceLoop,
    .advanceLoop, .advanceLoop, .submitOrder someRequest, .advance 0,
    .advance 0, .advance 0, .advance 0, .advanceLoop, .advanceLoop,
    .advanceLoop, .advanceLoop, .takeRequest ⟨0, someRequest⟩, .advanceLoop,
    .stop, .advanceControl, .advanceControl, .advanceLoop, .advanceLoop]

theorem no_lost_wake_up_wokenAndStopped :
    machine.Throughout (fun threads => ¬ threads.Stranded) init
      wokenAndStopped :=
  no_lost_wake_up wokenAndStopped (by decide)

/-- The loop tests the predicate, `stop` clears `running` and notifies, and
the loop blocks. -/
def notifiedInWindow : List ThreadAction :=
  [.start, .advanceControl, .advanceLoop, .advanceLoop, .advanceLoop,
    .advanceLoop, .stop, .advanceControl, .advanceControl, .advanceLoop]

theorem stop_strands_loop :
    ¬ machine.Throughout (fun threads => ¬ threads.Stranded) init
      notifiedInWindow := by
  decide

end Threads

end TradingBot
