import TradingBot.Threads.Refinement

namespace TradingBot

open Library

namespace Threads

/-! No thread has the lock without being at a point that releases it. -/

/-- Whoever owns the lock is at a point that holds it. -/
structure Locked (threads : Threads) : Prop extends Informed threads where
  loopHolds : threads.owner = some .loop →
    ∃ point ∈ threads.thread, point.holdsLock
  callerHolds : ∀ ticket, threads.owner = some (.caller ticket) →
    CallAt threads.calls ticket (·.holdsLock)

variable {threads next : Threads}

theorem holdsLock_wake {thread : Option LoopPoint}
    (locked : ∃ point ∈ thread, point.holdsLock) :
    ∃ point ∈ wake thread, point.holdsLock := by
  obtain ⟨point, rfl, holds⟩ := locked
  cases point with
  | blocked => cases holds
  | _ => exact ⟨_, rfl, holds⟩

theorem locked_init : init.Locked where
  toInformed := informed_init
  loopHolds := by simp [init]
  callerHolds := by simp [init]

theorem Locked.advance (locked : threads.Locked) {ticket : Nat}
    (stepped : threads.advance ticket = some next) : next.Locked := by
  have informed := locked.toInformed.advance stepped
  obtain ⟨call, found, ⟨_, _, rfl⟩ | ⟨point, rfl⟩ | ⟨_, rfl⟩ | ⟨point, rfl⟩⟩ :=
    advance_eq_some stepped
  · refine ⟨informed, by simp, fun other owns => ?_⟩
    cases owns
    exact (callAt_setPoint found).mpr (by simp [SubmitPoint.holdsLock])
  · have owns := locked.callerOwns ticket ((callAt_own found).mpr (by
      simp [point, SubmitPoint.holdsLock]))
    refine ⟨informed, by simp [owns], fun other same => ?_⟩
    rw [owns] at same
    cases same
    exact (callAt_setPoint found).mpr (by simp [SubmitPoint.holdsLock])
  · exact ⟨informed, by simp, by simp⟩
  · refine ⟨informed, fun owns => holdsLock_wake (locked.loopHolds owns),
      fun other owns => ?_⟩
    have holds := locked.callerHolds other owns
    rw [callAt_setPoint found, if_neg]
    · exact holds
    · rintro rfl
      have notifying := (callAt_own found).mp holds
      simp [point, SubmitPoint.holdsLock] at notifying

theorem Locked.advanceControl (locked : threads.Locked)
    (stepped : threads.advanceControl = some next) : next.Locked := by
  have informed := locked.toInformed.advanceControl stepped
  obtain ⟨here, rfl⟩ | ⟨_, rfl⟩ | ⟨_, rfl⟩ | ⟨_, ended, rfl⟩ :=
    advanceControl_eq_some stepped
  · refine ⟨informed, fun owns => ?_, locked.callerHolds⟩
    obtain ⟨point, member, _⟩ := locked.loopHolds owns
    rw [(locked.spawning here).1] at member
    cases member
  · exact ⟨informed, locked.loopHolds, locked.callerHolds⟩
  · exact ⟨informed, fun owns => holdsLock_wake (locked.loopHolds owns),
      locked.callerHolds⟩
  · refine ⟨informed, fun owns => ?_, locked.callerHolds⟩
    obtain ⟨point, member, holds⟩ := locked.loopHolds owns
    rcases ended with absent | returned
    · rw [absent] at member
      cases member
    · rw [returned] at member
      cases member
      cases holds

theorem Locked.advanceLoop (locked : threads.Locked)
    (stepped : threads.advanceLoop = some next) : next.Locked := by
  have informed := locked.toInformed.advanceLoop stepped
  obtain ⟨point, after, here, _, ⟨same, rfl⟩ | ⟨_, holds, _, rfl⟩ |
    ⟨held, _, rfl⟩⟩ := advanceLoop_eq_some stepped
  · refine ⟨informed, fun owns => ⟨after, rfl, ?_⟩, locked.callerHolds⟩
    obtain ⟨before, member, holds⟩ := locked.loopHolds owns
    rw [here] at member
    cases member
    rwa [← same]
  · exact ⟨informed, fun _ => ⟨after, rfl, holds⟩, by simp⟩
  · exact ⟨informed, by simp, by simp⟩

theorem Locked.step {action : ThreadAction} (locked : threads.Locked)
    (stepped : threads.step action = some next) : next.Locked := by
  have informed := locked.toInformed.step stepped
  cases action with
  | submitOrder request =>
      cases stepped
      exact ⟨informed, locked.loopHolds, fun ticket owns =>
        callAt_submitOrder.mpr (.inl (locked.callerHolds ticket owns))⟩
  | advance ticket => exact locked.advance stepped
  | start =>
      obtain ⟨_, rfl⟩ := start_eq_some.mp stepped
      exact ⟨informed, locked.loopHolds, locked.callerHolds⟩
  | stop =>
      obtain ⟨_, rfl⟩ := stop_eq_some.mp stepped
      exact ⟨informed, locked.loopHolds, locked.callerHolds⟩
  | advanceControl => exact locked.advanceControl stepped
  | advanceLoop => exact locked.advanceLoop stepped
  | takeRequest entry =>
      obtain ⟨_, rfl⟩ := takeRequest_eq_some.mp stepped
      exact ⟨informed, fun _ => ⟨_, rfl, rfl⟩, locked.callerHolds⟩
  | wakeSpuriously =>
      obtain ⟨blocked, rfl⟩ := wakeSpuriously_eq_some.mp stepped
      refine ⟨informed, fun owns => ?_, locked.callerHolds⟩
      obtain ⟨point, member, holds⟩ := locked.loopHolds owns
      rw [blocked] at member
      cases member
      cases holds

end Threads

end TradingBot
