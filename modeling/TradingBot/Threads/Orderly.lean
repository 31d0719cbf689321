import TradingBot.Threads

namespace TradingBot

/-! The order the lock and the controlling thread impose. -/

def SubmitPoint.Pushed : SubmitPoint → Prop
  | .acquire | .push => False
  | .release | .notify | .returned => True

/-- The loop is on its way out, having read `running` as false. -/
def LoopPoint.Exiting : LoopPoint → Prop
  | .exitQueue | .leave .exit | .returned => True
  | _ => False

/-- The loop starts to exit only on reading `running` as false. -/
theorem LoopPoint.exiting_of_next {running : Bool} {queue : List Queued}
    (point : LoopPoint) {after : LoopPoint}
    (moved : point.next running queue = some after)
    (exiting : after.Exiting) : running = false ∨ point.Exiting := by
  cases running with
  | false => exact .inl rfl
  | true =>
      refine .inr ?_
      cases point with
      | predQueue | continueTest =>
          simp only [next] at moved
          split at moved
          · cases moved
            exact exiting
          · cases moved
            exact exiting
      | leave leave =>
          cases leave with
          | exit => trivial
          | again | run _ =>
              cases moved
              exact exiting
      | exitQueue | returned => trivial
      | _ => cases moved <;> exact exiting

def ControlPoint.Stopping : ControlPoint → Prop
  | .notifyAll | .join => True
  | _ => False

namespace Threads

def CallAt (calls : List SubmitCall) (ticket : Nat)
    (property : SubmitPoint → Prop) : Prop :=
  ∃ call, calls[ticket]? = some call ∧ property call.point

structure Orderly (threads : Threads) : Prop where
  loopOwns : ∀ point ∈ threads.thread, point.holdsLock →
    threads.owner = some .loop
  callerOwns : ∀ ticket, CallAt threads.calls ticket (·.holdsLock) →
    threads.owner = some (.caller ticket)
  pushed : ∀ entry ∈ threads.queue, CallAt threads.calls entry.ticket (·.Pushed)
  cutoff : ∀ ticket ∈ threads.cutoff, CallAt threads.calls ticket (· = .returned)
  exiting : ∀ point ∈ threads.thread, point.Exiting → threads.running = false
  stopping : threads.thread ≠ none → threads.running = false →
    threads.control.Stopping
  spawning : threads.control = .spawn →
    threads.thread = none ∧ threads.running = true

theorem orderly_init : init.Orderly where
  loopOwns := by simp [init]
  callerOwns := by simp [init, CallAt]
  pushed := by simp [init]
  cutoff := by simp [init]
  exiting := by simp [init]
  stopping := by simp [init]
  spawning := by simp [init]

theorem callAt_submitOrder {threads : Threads} {request : ExecutionRequest}
    {ticket : Nat} {property : SubmitPoint → Prop} :
    CallAt (threads.submitOrder request).calls ticket property ↔
      CallAt threads.calls ticket property ∨
        ticket = threads.calls.length ∧ property .acquire := by
  simp only [CallAt, submitOrder, List.getElem?_append,
    List.getElem?_singleton]
  split
  next earlier =>
      have differ : ticket ≠ threads.calls.length := by omega
      simp [differ]
  next later =>
      have absent : threads.calls[ticket]? = none :=
        List.getElem?_eq_none (by omega)
      rw [absent]
      split
      next same =>
          have equal : ticket = threads.calls.length := by omega
          simp [equal]
      next differ =>
          have unequal : ticket ≠ threads.calls.length := by omega
          simp [unequal]

theorem callAt_setPoint {threads : Threads} {own ticket : Nat}
    {call : SubmitCall} (found : threads.calls[own]? = some call)
    {point : SubmitPoint} {property : SubmitPoint → Prop} :
    CallAt (threads.setPoint own call point) ticket property ↔
      if ticket = own then property point
      else CallAt threads.calls ticket property := by
  have within := (List.getElem?_eq_some_iff.mp found).1
  simp only [CallAt, setPoint, List.getElem?_set]
  rcases eq_or_ne own ticket with rfl | differ
  · simp [within]
  · simp [differ, differ.symm]

theorem callAt_own {threads : Threads} {ticket : Nat} {call : SubmitCall}
    (found : threads.calls[ticket]? = some call)
    {property : SubmitPoint → Prop} :
    CallAt threads.calls ticket property ↔ property call.point := by
  simp [CallAt, found]

@[simp] theorem wake_eq_none {thread : Option LoopPoint} :
    wake thread = none ↔ thread = none := by
  cases thread with
  | none => simp [wake]
  | some point => cases point <;> simp [wake]

theorem mem_wake {thread : Option LoopPoint} {point : LoopPoint}
    (member : point ∈ wake thread) :
    point = .reacquire ∨ point ∈ thread := by
  cases thread with
  | none => simp [wake] at member
  | some earlier =>
      cases earlier <;> simp_all [wake]

theorem of_wake_eq {thread : Option LoopPoint} {point : LoopPoint}
    (woken : wake thread = some point) (other : point ≠ .reacquire) :
    thread = some point := by
  rcases mem_wake woken with same | member
  · exact absurd same other
  · exact member

theorem wake_ne_blocked (thread : Option LoopPoint) :
    wake thread ≠ some .blocked := by
  cases thread with
  | none => simp [wake]
  | some point => cases point <;> simp [wake]

theorem Orderly.submitOrder {threads : Threads} (orderly : threads.Orderly)
    (request : ExecutionRequest) : (threads.submitOrder request).Orderly where
  loopOwns := orderly.loopOwns
  callerOwns ticket held := by
    rcases callAt_submitOrder.mp held with held | ⟨_, held⟩
    · exact orderly.callerOwns ticket held
    · cases held
  pushed entry member :=
    callAt_submitOrder.mpr (.inl (orderly.pushed entry member))
  cutoff ticket member :=
    callAt_submitOrder.mpr (.inl (orderly.cutoff ticket member))
  exiting := orderly.exiting
  stopping := orderly.stopping
  spawning := orderly.spawning

/-- A call moves on, with or without the lock. -/
theorem Orderly.setPoint {threads : Threads} (orderly : threads.Orderly)
    {ticket : Nat} {call : SubmitCall}
    (found : threads.calls[ticket]? = some call) (point : SubmitPoint)
    (running : call.point ≠ .returned)
    (forward : call.point.Pushed → point.Pushed) {owner : Option Owner}
    (loopOwns : ∀ loop ∈ threads.thread, loop.holdsLock → owner = some .loop)
    (callOwns : point.holdsLock → owner = some (.caller ticket))
    (othersOwn : ∀ other ≠ ticket, CallAt threads.calls other (·.holdsLock) →
      owner = some (.caller other)) :
    Orderly { threads with
      calls := threads.setPoint ticket call point, owner } where
  loopOwns := loopOwns
  callerOwns other held := by
    have held := (callAt_setPoint found).mp held
    split at held
    next same =>
        rw [same]
        exact callOwns held
    next differ => exact othersOwn other differ held
  pushed entry member := by
    have pushed := orderly.pushed entry member
    rw [callAt_setPoint found]
    split
    next same =>
        rw [same, callAt_own found] at pushed
        exact forward pushed
    next => exact pushed
  cutoff other member := by
    have returned := orderly.cutoff other member
    rw [callAt_setPoint found]
    split
    next same =>
        rw [same, callAt_own found] at returned
        exact absurd returned running
    next => exact returned
  exiting := orderly.exiting
  stopping := orderly.stopping
  spawning := orderly.spawning

theorem Orderly.push {threads : Threads} (orderly : threads.Orderly)
    {entry : Queued} (pushed : CallAt threads.calls entry.ticket (·.Pushed)) :
    Orderly { threads with queue := threads.queue ++ [entry] } :=
  { orderly with
    pushed := by
      intro other member
      rcases List.mem_append.mp member with member | member
      · exact orderly.pushed other member
      · rw [List.mem_singleton.mp member]
        exact pushed }

theorem Orderly.wake {threads : Threads} (orderly : threads.Orderly) :
    Orderly { threads with thread := wake threads.thread } :=
  { orderly with
    loopOwns := by
      intro loop thread held
      rcases mem_wake thread with rfl | thread
      · cases held
      · exact orderly.loopOwns loop thread held
    exiting := by
      intro loop thread exiting
      rcases mem_wake thread with rfl | thread
      · exact exiting.elim
      · exact orderly.exiting loop thread exiting
    stopping := fun joinable => orderly.stopping (by simpa using joinable)
    spawning := fun spawning => by simpa using orderly.spawning spawning }

theorem Orderly.advance {threads next : Threads} (orderly : threads.Orderly)
    {ticket : Nat} (stepped : threads.advance ticket = some next) :
    next.Orderly := by
  obtain ⟨call, found, ⟨point, free, rfl⟩ | ⟨point, rfl⟩ | ⟨point, rfl⟩ |
    ⟨point, rfl⟩⟩ := advance_eq_some stepped
  · refine orderly.setPoint found .push (by simp [point])
      (by simp [point, SubmitPoint.Pushed]) ?_ (fun _ => rfl) ?_
    · intro loop thread held
      rw [orderly.loopOwns loop thread held] at free
      cases free
    · intro other _ held
      rw [orderly.callerOwns other held] at free
      cases free
  · have owns := orderly.callerOwns ticket ((callAt_own found).mpr (by
      simp [point, SubmitPoint.holdsLock]))
    have released := orderly.setPoint found .release (by simp [point])
      (fun _ => trivial) orderly.loopOwns
      (fun _ => owns) (fun other _ => orderly.callerOwns other)
    refine released.push ((callAt_setPoint found).mpr ?_)
    simp [SubmitPoint.Pushed]
  · have owns := orderly.callerOwns ticket ((callAt_own found).mpr (by
      simp [point, SubmitPoint.holdsLock]))
    refine orderly.setPoint found .notify (by simp [point])
      (fun _ => trivial) ?_ (by simp [SubmitPoint.holdsLock]) ?_
    · intro loop thread held
      rw [orderly.loopOwns loop thread held] at owns
      cases owns
    · intro other differ held
      rw [orderly.callerOwns other held] at owns
      cases owns
      exact absurd rfl differ
  · have returned := orderly.setPoint found .returned (by simp [point])
      (fun _ => trivial) orderly.loopOwns
      (by simp [SubmitPoint.holdsLock]) (fun other _ => orderly.callerOwns other)
    exact returned.wake

/-- Between `start` and `stop` calls a joinable loop is a running one. -/
theorem Orderly.running_at_ready {threads : Threads}
    (orderly : threads.Orderly) (ready : threads.control = .ready)
    (joinable : threads.thread ≠ none) : threads.running = true := by
  cases running : threads.running with
  | true => rfl
  | false =>
      have stopping := orderly.stopping joinable running
      rw [ready] at stopping
      exact stopping.elim

theorem mem_returnedTickets {threads : Threads} {ticket : Nat} :
    ticket ∈ threads.returnedTickets ↔
      CallAt threads.calls ticket (· = .returned) := by
  simp only [returnedTickets, List.mem_filter, List.mem_range, Option.any_eq_true,
    decide_eq_true_eq, CallAt]
  constructor
  · intro listed
    exact listed.2
  · intro returned
    obtain ⟨call, found, point⟩ := returned
    exact ⟨(List.getElem?_eq_some_iff.mp found).1, call, found, point⟩

theorem Orderly.start {threads next : Threads} (orderly : threads.Orderly)
    (stepped : threads.start = some next) : next.Orderly := by
  obtain ⟨ready, rfl⟩ := start_eq_some.mp stepped
  exact
    { loopOwns := orderly.loopOwns
      callerOwns := orderly.callerOwns
      pushed := orderly.pushed
      cutoff := orderly.cutoff
      exiting := by
        intro point thread exiting
        have stopped := orderly.exiting point thread exiting
        have running := orderly.running_at_ready ready (by
          rw [thread]
          simp)
        rw [running] at stopped
        cases stopped
      stopping := fun _ stopped => by cases stopped
      spawning := by
        intro spawning
        cases running : threads.running with
        | true => simp [running] at spawning
        | false =>
            refine ⟨?_, rfl⟩
            by_contra joinable
            rw [orderly.running_at_ready ready joinable] at running
            cases running }

theorem Orderly.stop {threads next : Threads} (orderly : threads.Orderly)
    (stepped : threads.stop = some next) : next.Orderly := by
  obtain ⟨ready, rfl⟩ := stop_eq_some.mp stepped
  exact
    { loopOwns := orderly.loopOwns
      callerOwns := orderly.callerOwns
      pushed := orderly.pushed
      cutoff := by
        intro ticket member
        dsimp only at member
        split at member
        · exact orderly.cutoff ticket member
        · exact mem_returnedTickets.mp member
      exiting := orderly.exiting
      stopping := by
        intro joinable stopped
        rw [orderly.running_at_ready ready joinable] at stopped
        cases stopped
      spawning := fun spawning => by cases spawning }

theorem Orderly.advanceControl {threads next : Threads}
    (orderly : threads.Orderly)
    (stepped : threads.advanceControl = some next) : next.Orderly := by
  obtain ⟨control, rfl⟩ | ⟨control, rfl⟩ | ⟨control, rfl⟩ |
    ⟨control, joined, rfl⟩ := advanceControl_eq_some stepped
  · exact
      { orderly with
        loopOwns := fun point thread held => by
          cases thread
          cases held
        exiting := fun point thread exiting => by
          cases thread
          exact exiting.elim
        stopping := fun _ stopped => by
          rw [(orderly.spawning control).2] at stopped
          cases stopped
        spawning := fun spawning => by cases spawning }
  · exact
      { orderly with
        exiting := fun _ _ _ => rfl
        stopping := fun _ _ => trivial
        spawning := fun spawning => by cases spawning }
  · exact
      { orderly.wake with
        stopping := fun _ _ => trivial
        spawning := fun spawning => by cases spawning }
  · exact
      { orderly with
        loopOwns := fun point thread => by cases thread
        exiting := fun point thread => by cases thread
        stopping := fun joinable => absurd rfl joinable
        spawning := fun spawning => by cases spawning }

theorem Orderly.moveLoop {threads : Threads} (orderly : threads.Orderly)
    {point after : LoopPoint} (thread : threads.thread = some point)
    {owner : Option Owner} {queue : List Queued}
    (loopOwns : after.holdsLock → owner = some .loop)
    (callerOwns : ∀ ticket, CallAt threads.calls ticket (·.holdsLock) →
      owner = some (.caller ticket))
    (taken : queue ⊆ threads.queue)
    (exiting : after.Exiting → threads.running = false) :
    Orderly { threads with owner, queue, thread := some after } where
  loopOwns := by
    intro loop current held
    cases current
    exact loopOwns held
  callerOwns := callerOwns
  pushed entry member := orderly.pushed entry (taken member)
  cutoff := orderly.cutoff
  exiting := by
    intro loop current
    cases current
    exact exiting
  stopping _ := orderly.stopping (by simp [thread])
  spawning spawning := by
    have absent := (orderly.spawning spawning).1
    rw [thread] at absent
    cases absent

theorem Orderly.advanceLoop {threads next : Threads}
    (orderly : threads.Orderly)
    (stepped : threads.advanceLoop = some next) : next.Orderly := by
  obtain ⟨point, after, thread, moved, lock⟩ := advanceLoop_eq_some stepped
  have exiting : after.Exiting → threads.running = false := by
    intro exiting
    rcases point.exiting_of_next moved exiting with stopped | exiting
    · exact stopped
    · exact orderly.exiting point thread exiting
  rcases lock with ⟨same, rfl⟩ | ⟨unheld, held, free, rfl⟩ | ⟨held, free, rfl⟩
  · refine orderly.moveLoop thread ?_ orderly.callerOwns
      (List.Subset.refl _) exiting
    intro holds
    exact orderly.loopOwns point thread (same.trans holds)
  · refine orderly.moveLoop thread (fun _ => rfl) ?_
      (List.Subset.refl _) exiting
    intro ticket holds
    rw [orderly.callerOwns ticket holds] at free
    cases free
  · refine orderly.moveLoop thread (by simp [free]) ?_
      (List.Subset.refl _) exiting
    intro ticket holds
    have owner := orderly.callerOwns ticket holds
    rw [orderly.loopOwns point thread held] at owner
    cases owner

theorem Orderly.takeRequest {threads next : Threads}
    (orderly : threads.Orderly) {entry : Queued}
    (stepped : threads.takeRequest entry = some next) : next.Orderly := by
  obtain ⟨⟨thread, _, _⟩, rfl⟩ := takeRequest_eq_some.mp stepped
  exact orderly.moveLoop thread (fun _ => orderly.loopOwns .take thread rfl)
    orderly.callerOwns List.erase_subset (fun exiting => exiting.elim)

theorem Orderly.wakeSpuriously {threads next : Threads}
    (orderly : threads.Orderly)
    (stepped : threads.wakeSpuriously = some next) : next.Orderly := by
  obtain ⟨thread, rfl⟩ := wakeSpuriously_eq_some.mp stepped
  exact orderly.moveLoop thread (fun held => by cases held)
    orderly.callerOwns (List.Subset.refl _) (fun exiting => exiting.elim)

theorem Orderly.step {threads next : Threads} {action : ThreadAction}
    (orderly : threads.Orderly) (stepped : threads.step action = some next) :
    next.Orderly := by
  cases action with
  | submitOrder request =>
      cases stepped
      exact orderly.submitOrder request
  | advance ticket => exact orderly.advance stepped
  | start => exact orderly.start stepped
  | stop => exact orderly.stop stepped
  | advanceControl => exact orderly.advanceControl stepped
  | advanceLoop => exact orderly.advanceLoop stepped
  | takeRequest entry => exact orderly.takeRequest stepped
  | wakeSpuriously => exact orderly.wakeSpuriously stepped

end Threads

end TradingBot
